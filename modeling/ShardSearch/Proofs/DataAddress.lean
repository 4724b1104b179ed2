import Mathlib.Data.List.Nodup
import Mathlib.Data.List.Pairwise
import ShardSearch.Proofs.IndexAddress

/-!
Addresses of data files divide the ids up. Where every range of ids begins at a multiple of the span
of a repository and ends before the next one, and no two ranges share an id or a repository
(`Manifest.Tiled`), an id has one range (`Tiled.eq_of_contains`), and its number within the
repository is its distance from the first id of that range (`Tiled.fileNumber_eq`). The address
gives away the repository and the number of the file (`of_dataUrl_eq`), so it is shared by the ids
of one block of one range, and by no others (`dataUrl_divides_ranges`).

A range without a last id goes on up to the last id that a word can hold. It can be a tile like the
others, if it is the last one that the words have room for.
-/

set_option autoImplicit false

namespace ShardSearch

open Json (wordLimit)

/-- The last id of a range; without one, the last word. -/
def IdRange.final (r : IdRange) : Nat := r.last.getD (wordLimit - 1)

theorem IdRange.contains_iff_le_final {r : IdRange} {id : Nat} (hid : id < wordLimit) :
    r.contains id = true ↔ r.first ≤ id ∧ id ≤ r.final := by
  obtain ⟨first, last, repository⟩ := r
  cases last with
  | none =>
    have hle : id ≤ wordLimit - 1 := Nat.le_sub_one_of_lt hid
    simp [contains_iff, final, hle]
  | some last => simp [contains_iff, final]

namespace Manifest

/-- The number of ids that one data file has room for. -/
def fileCapacity (m : Manifest) : Nat := max m.documentsPerFile 1

theorem fileCapacity_pos (m : Manifest) : 0 < m.fileCapacity := Nat.le_max_right _ _

/-- The ids that some range contains. -/
def Covers (m : Manifest) (id : Nat) : Prop := ∃ r ∈ m.dataRanges, r.contains id = true

/-- The ranges of ids stand on the multiples of the span of a repository, each within one of them,
and keep apart; each has a repository of its own, and the address of a repository has a place for
its number. -/
structure Tiled (m : Manifest) (span : Nat) : Prop where
  hasPlace : placeholder <:+: m.repositoryTemplate.toList
  idsPerRepository_eq : m.idsPerRepository = some span
  span_pos : 0 < span
  aligned : ∀ r ∈ m.dataRanges, span ∣ r.first
  bounded : ∀ r ∈ m.dataRanges, r.final < r.first + span
  disjoint : m.dataRanges.Pairwise fun r s ↦
    ∀ id < wordLimit, ¬ (r.contains id = true ∧ s.contains id = true)
  repositories_nodup : (m.dataRanges.map IdRange.repository).Nodup

/-- A manifest with its ranges in another order. -/
def withRanges (m : Manifest) (ranges : List IdRange) : Manifest := { m with dataRanges := ranges }

/-! ### The file of an id -/

namespace Tiled

variable {m : Manifest} {span id : Nat} {r s : IdRange} (h : m.Tiled span)

include h

theorem eq_of_contains (hid : id < wordLimit) (hr : r ∈ m.dataRanges) (hs : s ∈ m.dataRanges)
    (hrid : r.contains id = true) (hsid : s.contains id = true) : r = s := by
  by_contra hne
  have : Std.Symm fun r s : IdRange ↦
      ∀ id < wordLimit, ¬ (r.contains id = true ∧ s.contains id = true) :=
    ⟨fun _ _ hapart id hid hboth ↦ hapart id hid hboth.symm⟩
  exact h.disjoint.forall hr hs hne id hid ⟨hrid, hsid⟩

theorem dataRange?_eq (hid : id < wordLimit) (hr : r ∈ m.dataRanges) (hrid : r.contains id = true) :
    m.dataRange? id = some r := by
  have hfound : (m.dataRanges.find? (·.contains id)).isSome = true :=
    List.find?_isSome.mpr ⟨r, hr, hrid⟩
  obtain ⟨s, hs⟩ := Option.isSome_iff_exists.mp hfound
  have hsid : s.contains id = true := by simpa using List.find?_some hs
  have hsr : s = r := h.eq_of_contains hid (List.mem_of_find?_eq_some hs) hr hsid hrid
  rw [dataRange?, hs, hsr]
  rfl

theorem dataRepository_eq (hid : id < wordLimit) (hr : r ∈ m.dataRanges)
    (hrid : r.contains id = true) : m.dataRepository id = r.repository := by
  rw [dataRepository, h.dataRange?_eq hid hr hrid]

/-- Within its repository an id counts from the first one of its range. -/
theorem fileNumber_eq (hid : id < wordLimit) (hr : r ∈ m.dataRanges)
    (hrid : r.contains id = true) : m.fileNumber id = (id - r.first) / m.fileCapacity := by
  obtain ⟨hfirst, hfinal⟩ := (IdRange.contains_iff_le_final hid).mp hrid
  have hlt : id - r.first < span := by
    have hbounded := h.bounded r hr
    omega
  have hmod : id % span = id - r.first := by
    obtain ⟨k, hk⟩ := h.aligned r hr
    calc
      id % span = (id - r.first + span * k) % span := by rw [← hk, Nat.sub_add_cancel hfirst]
      _ = (id - r.first) % span := Nat.add_mul_mod_self_left _ _ _
      _ = id - r.first := Nat.mod_eq_of_lt hlt
  rw [fileNumber, h.idsPerRepository_eq, fileCapacity]
  simp only [Nat.ne_of_gt h.span_pos, if_false, hmod]

theorem eq_of_repository_eq (hr : r ∈ m.dataRanges) (hs : s ∈ m.dataRanges)
    (heq : r.repository = s.repository) : r = s :=
  List.inj_on_of_nodup_map h.repositories_nodup hr hs heq

/-- The order of the ranges is not part of the layout. -/
theorem withRanges {other : List IdRange} (hperm : other.Perm m.dataRanges) :
    (m.withRanges other).Tiled span where
  hasPlace := h.hasPlace
  idsPerRepository_eq := h.idsPerRepository_eq
  span_pos := h.span_pos
  aligned r hr := h.aligned r (hperm.mem_iff.mp hr)
  bounded r hr := h.bounded r (hperm.mem_iff.mp hr)
  disjoint := hperm.symm.pairwise h.disjoint fun hapart id hid hboth ↦ hapart id hid hboth.symm
  repositories_nodup := (hperm.map IdRange.repository).nodup_iff.mpr h.repositories_nodup

theorem dataUrl_withRanges {other : List IdRange} (hperm : other.Perm m.dataRanges)
    (hid : id < wordLimit) (hcovers : m.Covers id) :
    (m.withRanges other).dataUrl id = m.dataUrl id := by
  obtain ⟨r, hr, hrid⟩ := hcovers
  have hother : (m.withRanges other).dataRepository id = m.dataRepository id := by
    rw [h.dataRepository_eq hid hr hrid,
      (h.withRanges hperm).dataRepository_eq hid (hperm.mem_iff.mpr hr) hrid]
  rw [dataUrl, dataUrl, hother]
  rfl

end Tiled

/-! ### Addresses -/

section Addresses

variable {m : Manifest} {a b : Nat}

/-- A data file is in the data directory of its repository. -/
theorem toList_dataPath (m : Manifest) (repository file : Nat) :
    (m.repositoryUrl repository ++ "/data/d_" ++ toString file ++ ".json").toList =
      (m.repositoryUrl repository).toList ++ "/data".toList ++
        '/' :: ("d_".toList ++ (toString file).toList ++ ".json".toList) := by
  have hdata : "/data/d_".toList = "/data".toList ++ '/' :: "d_".toList := rfl
  simp only [String.toList_append, hdata, List.append_assoc, List.cons_append]

theorem slash_not_mem_dataFileName (file : Nat) :
    '/' ∉ "d_".toList ++ (toString file).toList ++ ".json".toList := by
  have hdigits : '/' ∉ (toString file).toList := by
    rw [Nat.toString_eq_ofList_toDigits, String.toList_ofList]
    intro hslash
    have hdigit := Nat.isDigit_of_mem_toDigits (by decide) (by decide) hslash
    exact absurd hdigit (by decide)
  rw [List.mem_append, List.mem_append, not_or, not_or]
  exact ⟨⟨by decide, hdigits⟩, by decide⟩

/-- The address of a data file tells the repository and the number of the file. -/
theorem of_dataUrl_eq (hplace : placeholder <:+: m.repositoryTemplate.toList)
    (h : m.dataUrl a = m.dataUrl b) :
    m.dataRepository a = m.dataRepository b ∧ m.fileNumber a = m.fileNumber b := by
  have hpath := congrArg String.toList (versioned_injective h)
  rw [toList_dataPath, toList_dataPath] at hpath
  obtain ⟨hroot, hname⟩ :=
    eq_of_append_mark (slash_not_mem_dataFileName _) (slash_not_mem_dataFileName _) hpath
  refine ⟨repositoryUrl_injective hplace ?_, toList_toString_injective ?_⟩
  · exact String.toList_inj.mp (List.append_cancel_right hroot)
  · exact List.append_cancel_left (List.append_cancel_right hname)

theorem dataUrl_congr (hrepository : m.dataRepository a = m.dataRepository b)
    (hfile : m.fileNumber a = m.fileNumber b) : m.dataUrl a = m.dataUrl b := by
  rw [dataUrl, dataUrl, hrepository, hfile]

/-- Two covered ids share a file just if they are in the same block of the same range. -/
theorem Tiled.dataUrl_eq_iff {span : Nat} (h : m.Tiled span) (ha : a < wordLimit)
    (hb : b < wordLimit) (hacovers : m.Covers a) (hbcovers : m.Covers b) :
    m.dataUrl a = m.dataUrl b ↔ ∃ r ∈ m.dataRanges, r.contains a = true ∧ r.contains b = true ∧
      (a - r.first) / m.fileCapacity = (b - r.first) / m.fileCapacity := by
  constructor
  · intro heq
    obtain ⟨r, hr, hra⟩ := hacovers
    obtain ⟨s, hs, hsb⟩ := hbcovers
    obtain ⟨hrepository, hfile⟩ := of_dataUrl_eq h.hasPlace heq
    rw [h.dataRepository_eq ha hr hra, h.dataRepository_eq hb hs hsb] at hrepository
    obtain rfl := h.eq_of_repository_eq hr hs hrepository
    rw [h.fileNumber_eq ha hr hra, h.fileNumber_eq hb hr hsb] at hfile
    exact ⟨r, hr, hra, hsb, hfile⟩
  · rintro ⟨r, hr, hra, hrb, hblock⟩
    refine dataUrl_congr ?_ ?_
    · rw [h.dataRepository_eq ha hr hra, h.dataRepository_eq hb hr hrb]
    · rw [h.fileNumber_eq ha hr hra, h.fileNumber_eq hb hr hrb, hblock]

end Addresses

/-! ### Blocks of ids -/

/-- The covered ids of one file are a block of one range without gaps, no longer than the capacity
of a file. -/
theorem Tiled.exists_block {m : Manifest} {span a : Nat} (h : m.Tiled span) (ha : a < wordLimit)
    (hacovers : m.Covers a) : ∃ r ∈ m.dataRanges, ∃ low high, high < low + m.fileCapacity ∧
      ∀ b < wordLimit, (m.Covers b ∧ m.dataUrl b = m.dataUrl a ↔ low ≤ b ∧ b ≤ high) ∧
        (low ≤ b ∧ b ≤ high → r.contains b = true) := by
  obtain ⟨r, hr, hra⟩ := hacovers
  have hcapacity := m.fileCapacity_pos
  let block := (a - r.first) / m.fileCapacity
  let low := r.first + block * m.fileCapacity
  let high := min (low + m.fileCapacity - 1) r.final
  have hmem : ∀ b < wordLimit, r.contains b = true ∧ (b - r.first) / m.fileCapacity = block ↔
      low ≤ b ∧ b ≤ high := by
    intro b hb
    rw [IdRange.contains_iff_le_final hb, Nat.div_eq_iff hcapacity]
    simp only [low, high]
    omega
  refine ⟨r, hr, low, high, ?_, fun b hb ↦ ⟨?_, fun hblock ↦ ((hmem b hb).mpr hblock).1⟩⟩
  · simp only [high]
    omega
  · rw [← hmem b hb]
    constructor
    · rintro ⟨hbcovers, heq⟩
      obtain ⟨s, hs, hsb, hsa, hblock⟩ :=
        (h.dataUrl_eq_iff hb ha hbcovers ⟨r, hr, hra⟩).mp heq
      obtain rfl := h.eq_of_contains ha hs hr hsa hra
      exact ⟨hsb, hblock⟩
    · rintro ⟨hrb, hblock⟩
      exact ⟨⟨r, hr, hrb⟩, (h.dataUrl_eq_iff hb ha ⟨r, hr, hrb⟩ ⟨r, hr, hra⟩).mpr
        ⟨r, hr, hrb, hra, hblock⟩⟩

/-- Where the ranges of ids tile the repositories, two covered ids have the same data file just if
they are in the same range and at the same number of whole files from its first id. So each file has
a block of one range to itself, without gaps and no longer than the capacity of a file, and the
order of the ranges is of no account. -/
theorem dataUrl_divides_ranges {m : Manifest} {span : Nat} (h : m.Tiled span) :
    (∀ a b, a < wordLimit → b < wordLimit → m.Covers a → m.Covers b →
      (m.dataUrl a = m.dataUrl b ↔ ∃ r ∈ m.dataRanges, r.contains a = true ∧ r.contains b = true ∧
        (a - r.first) / m.fileCapacity = (b - r.first) / m.fileCapacity)) ∧
    (∀ a < wordLimit, m.Covers a →
      ∃ r ∈ m.dataRanges, ∃ low high, high < low + m.fileCapacity ∧
        ∀ b < wordLimit, (m.Covers b ∧ m.dataUrl b = m.dataUrl a ↔ low ≤ b ∧ b ≤ high) ∧
          (low ≤ b ∧ b ≤ high → r.contains b = true)) ∧
    ∀ other : List IdRange, other.Perm m.dataRanges → ∀ a < wordLimit, m.Covers a →
      (m.withRanges other).dataUrl a = m.dataUrl a := by
  refine ⟨fun a b ha hb hacovers hbcovers ↦ ?_, fun a ha hacovers ↦ ?_,
    fun other hperm a ha hacovers ↦ ?_⟩
  · exact h.dataUrl_eq_iff ha hb hacovers hbcovers
  · exact h.exists_block ha hacovers
  · exact h.dataUrl_withRanges hperm ha hacovers

/-- Two repositories of half of all words each; the one with the upper half goes on to the last word
and stands first. A file has room for three ids. -/
def halvedManifest : Manifest :=
  ⟨0, 1, "r", "\x7b\x7d", [], [⟨Nat.pow 2 63, none, 11⟩, ⟨0, some 6, 1⟩], some (Nat.pow 2 63), 3,
    none⟩

theorem tiled_halvedManifest : halvedManifest.Tiled (Nat.pow 2 63) where
  hasPlace := by decide +kernel
  idsPerRepository_eq := rfl
  span_pos := by decide
  aligned := by decide
  bounded := by decide
  disjoint := by
    rw [halvedManifest, List.pairwise_pair]
    rintro id - ⟨hupper, hlower⟩
    have hhalf : 6 < Nat.pow 2 63 := by decide
    simp only [IdRange.contains_iff, Option.some.injEq, forall_eq'] at hupper hlower
    omega
  repositories_nodup := by decide

theorem halved_dataUrl_divides_ranges : halvedManifest.dataUrl 2 = halvedManifest.dataUrl 0 ∧
    halvedManifest.dataUrl 3 ≠ halvedManifest.dataUrl 2 ∧
    halvedManifest.dataUrl (Nat.pow 2 63) ≠ halvedManifest.dataUrl 0 ∧
    (∃ r ∈ halvedManifest.dataRanges, ∃ low high, high < low + 3 ∧ ∀ b < wordLimit,
      (halvedManifest.Covers b ∧ halvedManifest.dataUrl b = halvedManifest.dataUrl 6 ↔
        low ≤ b ∧ b ≤ high) ∧ (low ≤ b ∧ b ≤ high → r.contains b = true)) ∧
    (halvedManifest.withRanges [⟨0, some 6, 1⟩, ⟨Nat.pow 2 63, none, 11⟩]).dataUrl 4 =
      halvedManifest.dataUrl 4 := by
  obtain ⟨hshared, hblock, horder⟩ := dataUrl_divides_ranges tiled_halvedManifest
  have hcovers : ∀ id ∈ [0, 2, 3, 4, 6, Nat.pow 2 63],
      id < wordLimit ∧ halvedManifest.Covers id := by
    unfold Covers
    decide
  obtain ⟨hzero, hzeroCovers⟩ := hcovers 0 (by decide)
  obtain ⟨htwo, htwoCovers⟩ := hcovers 2 (by decide)
  obtain ⟨hthree, hthreeCovers⟩ := hcovers 3 (by decide)
  obtain ⟨hfour, hfourCovers⟩ := hcovers 4 (by decide)
  obtain ⟨hsix, hsixCovers⟩ := hcovers 6 (by decide)
  obtain ⟨hupper, hupperCovers⟩ := hcovers (Nat.pow 2 63) (by decide)
  refine ⟨?_, ?_, ?_, ?_, ?_⟩
  · exact (hshared 2 0 htwo hzero htwoCovers hzeroCovers).mpr (by decide)
  · rw [ne_eq, hshared 3 2 hthree htwo hthreeCovers htwoCovers]
    decide
  · rw [ne_eq, hshared _ 0 hupper hzero hupperCovers hzeroCovers]
    decide
  · exact hblock 6 hsix hsixCovers
  · exact horder _ (List.Perm.swap _ _ []) 4 hfour hfourCovers

end Manifest

end ShardSearch
