import ShardSearch.Main
import ShardSearch.Proofs.PlanResult
import ShardSearch.Proofs.IndexResolution
import ShardSearch.Proofs.ReadFailures
import ShardSearch.Proofs.DocumentOrder
import ShardSearch.Proofs.CallAlone
import ShardSearch.Proofs.ExportFlag
import ShardSearch.Proofs.Pagination
import ShardSearch.Proofs.SearchStart
import ShardSearch.Proofs.OverlappingSearches
import ShardSearch.Proofs.PageHistory
import ShardSearch.Proofs.PageExclusion
import ShardSearch.Proofs.FlagRelease
import ShardSearch.Proofs.NumericManifest
import ShardSearch.Proofs.ConfigFile
import ShardSearch.Proofs.PageSequence
import ShardSearch.Proofs.QueryScan
import ShardSearch.Proofs.QueryGrammar
import ShardSearch.Proofs.SearchHistory
import ShardSearch.Proofs.PhraseTerm
import ShardSearch.Proofs.PhraseSearch
import ShardSearch.Proofs.JsonText
import ShardSearch.Proofs.IndexSegments
import ShardSearch.Proofs.NumericTiling
import ShardSearch.Proofs.DocumentFiles
import ShardSearch.Proofs.PlanReads
import ShardSearch.Proofs.DocumentSort
import ShardSearch.Proofs.PhrasePrefilter
import ShardSearch.Proofs.IndexAddress
import ShardSearch.Proofs.DataAddress
import ShardSearch.Proofs.WordRuns
import ShardSearch.Proofs.QueryAlternatives
import ShardSearch.Proofs.PlanForm
import ShardSearch.Proofs.RefusedCalls
import ShardSearch.Proofs.StatusBounds
import ShardSearch.Proofs.Resorting
import ShardSearch.Proofs.PageArithmetic
import ShardSearch.Proofs.TermCoverage
