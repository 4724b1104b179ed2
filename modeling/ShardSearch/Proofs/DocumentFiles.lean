import Mathlib.Data.List.Induction
import ShardSearch.Proofs.DocumentLoad
import ShardSearch.Proofs.ReadFailures

/-!
Loading documents, file by file. A request reads the distinct files of its ids in the order in which
the ids come to them first (`FirstSeen`), and gets its documents from their `records`, put one after
the other: `Loads` goes through the ids and takes for each the last record that has it, or nothing.

Files that fail take records away, so they can only take documents from the result. They may still
change a document that is left, where an id has records in several files. If every record stands in
the file of its own id that cannot happen, and what an id gets has to do with this file alone.
-/

set_option autoImplicit false

namespace ShardSearch

/-! ### Distinct elements -/

/-- The distinct elements of a list, in the order in which it has them first. -/
structure FirstSeen {α : Type} [DecidableEq α] (items distinct : List α) : Prop where
  mem_iff : ∀ a, a ∈ distinct ↔ a ∈ items
  order : distinct.Pairwise fun a b ↦ items.idxOf a < items.idxOf b

theorem FirstSeen.nodup {α : Type} [DecidableEq α] {items distinct : List α}
    (h : FirstSeen items distinct) : distinct.Nodup := by
  refine h.order.imp fun hlt heq ↦ ?_
  rw [heq] at hlt
  exact Nat.lt_irrefl _ hlt

theorem firstSeen_eraseDups {α : Type} [DecidableEq α] (items : List α) :
    FirstSeen items items.eraseDups := by
  refine ⟨fun _ ↦ List.mem_eraseDups, ?_⟩
  induction items using List.reverseRecOn with
  | nil => simp
  | append_singleton rest a ih =>
    have hkept : rest.eraseDups.Pairwise fun b c ↦
        (rest ++ [a]).idxOf b < (rest ++ [a]).idxOf c := by
      refine ih.imp_of_mem fun hb hc hlt ↦ ?_
      rwa [List.idxOf_append_of_mem (List.mem_eraseDups.mp hb),
        List.idxOf_append_of_mem (List.mem_eraseDups.mp hc)]
    rw [List.eraseDups_append]
    -- The last element has its place already, or it comes after all the others.
    by_cases ha : a ∈ rest
    · have hold : [a].removeAll rest = [] := by simp [List.removeAll, ha]
      rwa [hold, List.eraseDups_nil, List.append_nil]
    · have hnew : [a].removeAll rest = [a] := by simp [List.removeAll, ha]
      rw [hnew, List.eraseDups_cons, List.filter_nil, List.eraseDups_nil, List.pairwise_append]
      refine ⟨hkept, List.pairwise_singleton _ _, fun b hb c hc ↦ ?_⟩
      have hbrest : b ∈ rest := List.mem_eraseDups.mp hb
      rw [List.mem_singleton.mp hc, List.idxOf_append_of_mem hbrest,
        List.idxOf_append_of_notMem ha]
      exact Nat.lt_add_right _ (List.idxOf_lt_length_iff.mpr hbrest)

namespace Document

/-! ### Records -/

/-- The well-formed records in the files of a request, as far as these can be read and are lists,
one file after the other. -/
def records (m : Manifest) (network : String → Option Json) (ids : List Nat) : List Document :=
  ((m.dataUrls ids).filterMap fun url ↦ (network url).bind Json.array?).flatten.filterMap ofJson?

/-- A document is the last one of an id in a list. -/
def IsLast (documents : List Document) (id : Nat) (d : Document) : Prop :=
  d.id = id ∧ ∃ before after, documents = before ++ d :: after ∧ ∀ other ∈ after, other.id ≠ id

/-- What a request gets out of records: for each id, one after the other, the last record that has
it, and nothing for an id that no record has. -/
inductive Loads (records : List Document) : List Nat → List Document → Prop
  | nil : Loads records [] []
  | found {id : Nat} {d : Document} {ids : List Nat} {documents : List Document}
      (h : IsLast records id d) (rest : Loads records ids documents) :
      Loads records (id :: ids) (d :: documents)
  | missing {id : Nat} {ids : List Nat} {documents : List Document}
      (h : ∀ d ∈ records, d.id ≠ id) (rest : Loads records ids documents) :
      Loads records (id :: ids) documents

section Records

variable {m : Manifest} {network : String → Option Json} {ids : List Nat}

theorem records_eq : records m network ids =
    (m.dataUrls ids).flatMap fun url ↦ ofFile (network url) := by
  rw [records]
  induction m.dataUrls ids with
  | nil => rfl
  | cons url rest ih =>
    rw [List.flatMap_cons, ← ih, List.filterMap_cons, ofFile]
    cases (network url).bind Json.array? with
    | none => rfl
    | some items => exact List.filterMap_append

theorem run_load_eq : (load m ids).run network =
    ids.filterMap (last? (records m network ids)) := by
  rw [run_load, records_eq]

theorem last?_eq_some_iff {documents : List Document} {id : Nat} {d : Document} :
    last? documents id = some d ↔ IsLast documents id d := by
  rw [last?, List.findRev?_eq_find?_reverse, List.find?_eq_some_iff_append, beq_iff_eq, IsLast]
  refine and_congr_right fun _ ↦ ⟨?_, ?_⟩
  · rintro ⟨before, after, hsplit, hbefore⟩
    refine ⟨after.reverse, before.reverse, ?_, fun other hother ↦ ?_⟩
    · rw [← List.reverse_reverse documents, hsplit]
      simp
    · simpa using hbefore other (List.mem_reverse.mp hother)
  · rintro ⟨before, after, rfl, hafter⟩
    refine ⟨after.reverse, before.reverse, by simp, fun other hother ↦ ?_⟩
    simpa using hafter other (List.mem_reverse.mp hother)

theorem loads_filterMap (documents : List Document) (ids : List Nat) :
    Loads documents ids (ids.filterMap (last? documents)) := by
  induction ids with
  | nil => exact .nil
  | cons id rest ih =>
    cases hlast : last? documents id with
    | none =>
      rw [List.filterMap_cons_none hlast]
      exact .missing (last?_eq_none.mp hlast) ih
    | some d =>
      rw [List.filterMap_cons_some hlast]
      exact .found (last?_eq_some_iff.mp hlast) ih

/-- The ids of a result are those wanted ones that some record has. -/
theorem map_id_run_load : ((load m ids).run network).map (·.id) =
    ids.filter fun id ↦ (last? (records m network ids) id).isSome := by
  rw [run_load_eq, List.map_filterMap, ← List.filterMap_eq_filter]
  refine List.filterMap_congr fun id _ ↦ ?_
  cases hlast : last? (records m network ids) id with
  | none => simp [Option.guard, hlast]
  | some d => simp [Option.guard, hlast, id_of_last? hlast]

/-- With more failures there are no other records than with fewer. -/
theorem records_subset_of_failing {failed more : String → Bool}
    (hmore : ∀ url, failed url = true → more url = true) :
    records m (Fetch.failing more network) ids ⊆ records m (Fetch.failing failed network) ids := by
  intro d hd
  rw [records_eq, List.mem_flatMap] at hd ⊢
  obtain ⟨url, hurl, hfile⟩ := hd
  rcases Fetch.failing_cases network hmore url with hfails | hsame
  · rw [hfails] at hfile
    exact absurd hfile List.not_mem_nil
  · exact ⟨url, hurl, by rwa [hsame]⟩

end Records

/-- Loading some ids reads the files of these ids, each once, in the order in which the ids come to
them first, and nothing else. For each id in turn, as often as it is wanted, it gets the last
well-formed record with the id in the files that can be read, or nothing if there is none. With more
failures the ids of the documents are a sublist of those with fewer. Where every record stands in
the file of its own id, what an id gets is what it would get if it were wanted alone, and two
requests get together what they get one after the other. -/
theorem load_by_files (m : Manifest) (network : String → Option Json) (ids : List Nat) :
    ((load m ids).reads network = m.dataUrls ids ∧ (m.dataUrls ids).Nodup ∧
        FirstSeen (ids.map m.dataUrl) (m.dataUrls ids)) ∧
      Loads (records m network ids) ids ((load m ids).run network) ∧
      (∀ failed more : String → Bool, (∀ url, failed url = true → more url = true) →
        (((load m ids).run (Fetch.failing more network)).map (·.id)).Sublist
          (((load m ids).run (Fetch.failing failed network)).map (·.id))) ∧
      (WellPlaced m network →
        (∀ id ∈ ids, ∀ d,
          IsLast (records m network ids) id d ↔ IsLast (records m network [id]) id d) ∧
        ∀ later, (load m (ids ++ later)).run network =
          (load m ids).run network ++ (load m later).run network) := by
  have hseen : FirstSeen (ids.map m.dataUrl) (m.dataUrls ids) := firstSeen_eraseDups _
  refine ⟨⟨reads_load network m ids, hseen.nodup, hseen⟩, ?_, fun failed more hmore ↦ ?_,
    fun hplaced ↦ ⟨fun id hid d ↦ ?_, fun later ↦ run_load_append hplaced ids later⟩⟩
  · rw [run_load_eq]
    exact loads_filterMap _ ids
  · rw [map_id_run_load, map_id_run_load]
    refine List.monotone_filter_right ids fun id hsome ↦ ?_
    obtain ⟨d, hlast⟩ := Option.isSome_iff_exists.mp hsome
    have hrecord := records_subset_of_failing hmore (mem_of_last? hlast)
    rw [Option.isSome_iff_ne_none]
    exact fun hnone ↦ last?_eq_none.mp hnone d hrecord (id_of_last? hlast)
  · rw [← last?_eq_some_iff, ← last?_eq_some_iff, records_eq, records_eq,
      last?_files_of_placed hplaced hid, last?_files_of_placed hplaced List.mem_cons_self]

/-- Files of two documents each. -/
def pairedManifest : Manifest := ⟨4, 1, "r", "", [], [], none, 2, none⟩

/-- The first file has junk and two records of one id, and the third one cannot be read. -/
def pairedFiles (url : String) : Option Json :=
  if url = "r/data/d_0.json" then
    some (.array [.array [.number (.int 0)], .string "junk",
      .array [.number (.int 1), .string "old"], .array [.number (.int 1), .string "new"]])
  else if url = "r/data/d_1.json" then
    some (.array [.array [.number (.int 2)], .array [.number (.int 3)]])
  else none

theorem wellPlaced_pairedFiles : WellPlaced pairedManifest pairedFiles := by
  intro id d hd
  unfold pairedFiles at hd
  split at hd
  · next hurl =>
    have hd : d ∈ [(⟨0, .null⟩ : Document), ⟨1, .string "old"⟩, ⟨1, .string "new"⟩] := hd
    rw [hurl]
    simp only [List.mem_cons, List.not_mem_nil, or_false] at hd
    rcases hd with rfl | rfl | rfl <;> decide +kernel
  · split at hd
    · next hurl =>
      have hd : d ∈ [(⟨2, .null⟩ : Document), ⟨3, .null⟩] := hd
      rw [hurl]
      simp only [List.mem_cons, List.not_mem_nil, or_false] at hd
      rcases hd with rfl | rfl <;> decide +kernel
    · exact absurd hd List.not_mem_nil

theorem paired_load_by_files :
    (load pairedManifest [3, 1, 4, 3]).reads pairedFiles =
        ["r/data/d_1.json", "r/data/d_0.json", "r/data/d_2.json"] ∧
      (load pairedManifest [3, 1, 4, 3]).run pairedFiles =
        [⟨3, .null⟩, ⟨1, .string "new"⟩, ⟨3, .null⟩] ∧
      (((load pairedManifest [3, 1, 4, 3]).run
          (Fetch.failing (· == "r/data/d_1.json") pairedFiles)).map (·.id)).Sublist
        (((load pairedManifest [3, 1, 4, 3]).run
          (Fetch.failing (fun _ ↦ false) pairedFiles)).map (·.id)) ∧
      (load pairedManifest ([3, 1, 4, 3] ++ [0])).run pairedFiles =
        (load pairedManifest [3, 1, 4, 3]).run pairedFiles ++
          (load pairedManifest [0]).run pairedFiles := by
  obtain ⟨⟨hreads, -⟩, -, hfailing, hbatches⟩ :=
    load_by_files pairedManifest pairedFiles [3, 1, 4, 3]
  refine ⟨?_, by rfl, ?_, (hbatches wellPlaced_pairedFiles).2 [0]⟩
  · rw [hreads]
    decide +kernel
  · exact hfailing _ _ fun _ hfails ↦ absurd hfails Bool.false_ne_true

end Document

end ShardSearch
