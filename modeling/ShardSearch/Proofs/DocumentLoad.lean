import Mathlib.Data.List.Basic
import ShardSearch.Document.Load

/-!
What loading documents returns. Data files are placed well if every document stands in the file that
the manifest names for its id. A load then finds for each id just what the file of this id has
(`run_load_of_placed`), so what it returns for one id has nothing to do with the other ids, and
loading two lists one after the other is loading both at once (`run_load_append`).
-/

set_option autoImplicit false

namespace ShardSearch

theorem Fetch.exists_read_of_reads_ne_nil {α : Type} {answer : String → Option Json}
    {m : Fetch α} (h : m.reads answer ≠ []) : ∃ url next, m = .read url next := by
  cases m with
  | done a => exact absurd rfl h
  | read url next => exact ⟨url, next, rfl⟩

theorem Manifest.dataUrls_ne_nil (m : Manifest) {ids : List Nat} (h : ids ≠ []) :
    m.dataUrls ids ≠ [] := by
  obtain ⟨id, hid⟩ := List.exists_mem_of_ne_nil ids h
  exact List.ne_nil_of_mem (List.mem_eraseDups.mpr (List.mem_map_of_mem hid))

namespace Document

/-- In the files of a network, documents stand where the manifest looks for them. -/
def WellPlaced (m : Manifest) (network : String → Option Json) : Prop :=
  ∀ id, ∀ d ∈ ofFile (network (m.dataUrl id)), m.dataUrl d.id = m.dataUrl id

theorem id_of_last? {documents : List Document} {id : Nat} {d : Document}
    (h : last? documents id = some d) : d.id = id := by
  rw [last?, List.findRev?_eq_find?_reverse] at h
  simpa using List.find?_some h

theorem mem_of_last? {documents : List Document} {id : Nat} {d : Document}
    (h : last? documents id = some d) : d ∈ documents := by
  rw [last?, List.findRev?_eq_find?_reverse] at h
  exact List.mem_reverse.mp (List.mem_of_find?_eq_some h)

/-- Documents are loaded for the wanted ids only. -/
theorem id_mem_of_mem_run_load {network : String → Option Json} {m : Manifest} {ids : List Nat}
    {d : Document} (h : d ∈ (load m ids).run network) : d.id ∈ ids := by
  rw [run_load, List.mem_filterMap] at h
  obtain ⟨id, hid, hlast⟩ := h
  rw [id_of_last? hlast]
  exact hid

theorem last?_append (first second : List Document) (id : Nat) :
    last? (first ++ second) id = (last? second id).or (last? first id) := by
  simp only [last?, List.findRev?_eq_find?_reverse, List.reverse_append, List.find?_append]

theorem last?_eq_none {documents : List Document} {id : Nat} :
    last? documents id = none ↔ ∀ d ∈ documents, d.id ≠ id := by
  simp [last?, List.findRev?_eq_find?_reverse]

/-- The last document of an id in several files, only one of which may have the id. -/
theorem last?_flatMap_of_unique (files : String → List Document) {urls : List String} {id : Nat}
    {url : String} (hmem : url ∈ urls) (honly : ∀ other ∈ urls, ∀ d ∈ files other, d.id = id →
      other = url) : last? (urls.flatMap files) id = last? (files url) id := by
  induction urls with
  | nil => cases hmem
  | cons head rest ih =>
    have honlyRest : ∀ other ∈ rest, ∀ d ∈ files other, d.id = id → other = url :=
      fun other hother ↦ honly other (List.mem_cons_of_mem head hother)
    rw [List.flatMap_cons, last?_append]
    by_cases hrest : url ∈ rest
    · rw [ih hrest honlyRest]
      by_cases hhead : head = url
      · rw [hhead, Option.or_self]
      · have hnone : last? (files head) id = none := last?_eq_none.mpr fun d hd hid ↦
          hhead (honly head List.mem_cons_self d hd hid)
        rw [hnone, Option.or_none]
    · have hhead : url = head := by
        rcases List.mem_cons.mp hmem with h | h
        · exact h
        · exact absurd h hrest
      have hnone : last? (rest.flatMap files) id = none := by
        refine last?_eq_none.mpr fun d hd hid ↦ ?_
        obtain ⟨other, hother, hfile⟩ := List.mem_flatMap.mp hd
        exact hrest (honlyRest other hother d hfile hid ▸ hother)
      rw [hnone, Option.none_or, hhead]

/-- Where documents are well placed, the last document of a wanted id in all the files that are
read is the last one in its own file. -/
theorem last?_files_of_placed {network : String → Option Json} {m : Manifest}
    (hplaced : WellPlaced m network) {ids : List Nat} {id : Nat} (hid : id ∈ ids) :
    last? ((m.dataUrls ids).flatMap fun url ↦ ofFile (network url)) id =
      last? (ofFile (network (m.dataUrl id))) id := by
  have hmem : ∀ url, url ∈ m.dataUrls ids ↔ ∃ other ∈ ids, m.dataUrl other = url := by
    intro url
    rw [Manifest.dataUrls, List.mem_eraseDups, List.mem_map]
  refine last?_flatMap_of_unique (fun url ↦ ofFile (network url))
    ((hmem _).mpr ⟨id, hid, rfl⟩) ?_
  intro url hurl d hd hdid
  obtain ⟨other, -, rfl⟩ := (hmem url).mp hurl
  rw [← hplaced other d hd, hdid]

/-- Where documents are well placed, an id gets the last document of the id in its own file. -/
theorem run_load_of_placed {network : String → Option Json} {m : Manifest}
    (hplaced : WellPlaced m network) (ids : List Nat) :
    (load m ids).run network =
      ids.filterMap fun id ↦ last? (ofFile (network (m.dataUrl id))) id := by
  rw [run_load]
  exact List.filterMap_congr fun id hid ↦ last?_files_of_placed hplaced hid

theorem mem_run_load_of_placed {network : String → Option Json} {m : Manifest}
    (hplaced : WellPlaced m network) {ids : List Nat} {d : Document} :
    d ∈ (load m ids).run network ↔
      d.id ∈ ids ∧ last? (ofFile (network (m.dataUrl d.id))) d.id = some d := by
  rw [run_load_of_placed hplaced, List.mem_filterMap]
  constructor
  · rintro ⟨id, hid, hlast⟩
    obtain rfl := id_of_last? hlast
    exact ⟨hid, hlast⟩
  · rintro ⟨hid, hlast⟩
    exact ⟨d.id, hid, hlast⟩

theorem run_load_append {network : String → Option Json} {m : Manifest}
    (hplaced : WellPlaced m network) (first second : List Nat) :
    (load m (first ++ second)).run network =
      (load m first).run network ++ (load m second).run network := by
  simp only [run_load_of_placed hplaced, List.filterMap_append]

/-- Loading some ids begins with a read. -/
theorem exists_read_of_ne_nil (m : Manifest) {ids : List Nat} (h : ids ≠ []) :
    ∃ url next, load m ids = .read url next := by
  have hreads : (load m ids).reads (fun _ ↦ none) ≠ [] := by
    rw [reads_load]
    exact m.dataUrls_ne_nil h
  exact Fetch.exists_read_of_reads_ne_nil hreads

end Document

end ShardSearch
