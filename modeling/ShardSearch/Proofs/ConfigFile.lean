import ShardSearch.Config.File
import ShardSearch.Proofs.JsonText

/-!
A saved configuration is loaded as it was. Its text is JSON that the reader takes back
(`Json.Tree.parse?_pretty`), all its fields being texts or words of 64 bits (`fits_toJson`). A
section is written as a record of all its fields, each under its own name, so it is decoded to
itself: `ofTree?_toJson`, for each section and for the whole. `load_save` adds the bytes, which are
those of the text, and holds at every path that can be written to.

Loading twice is loading once. A file that is there stays as it is, and where one is created it has
the default configuration, which is what the first load has returned; an override of the root comes
after both (`load_stable`).
-/

set_option autoImplicit false

namespace ShardSearch

open Json (Tree)

/-! ### Sections -/

theorem lt_of_word (w : UInt64) : (w.toNat : Int) < Nat.pow 2 64 := by
  exact_mod_cast w.toNat_lt

theorem Json.fits_word (w : UInt64) : (Number.int w.toNat).Fits := by
  refine ⟨?_, lt_of_word w⟩
  exact Int.le_trans (by decide) (Int.natCast_nonneg w.toNat)

theorem Json.Tree.word?_toNat (w : UInt64) : word? (.number (some (.int w.toNat))) = some w := by
  rw [word?, if_pos ⟨Int.natCast_nonneg _, lt_of_word w⟩, Int.toNat_natCast, UInt64.ofNat_toNat]

theorem Source.ofTree?_toJson (s : Source) : ofTree? (Tree.ofJson s.toJson) = some s := rfl

theorem HttpOptions.ofTree?_toJson (o : HttpOptions) :
    ofTree? (Tree.ofJson o.toJson) = some o := by
  have hrecord : (Tree.ofJson o.toJson).isRecord ["timeout_secs", "user_agent"] = true := rfl
  have htimeout : (Tree.ofJson o.toJson).slot? 0 "timeout_secs" =
      some (.number (some (.int o.timeoutSeconds.toNat))) := rfl
  rw [ofTree?, if_pos hrecord, htimeout, Option.bind_eq_bind, Option.bind_some, Tree.word?_toNat]
  rfl

theorem SearchOptions.ofTree?_toJson (o : SearchOptions) :
    ofTree? (Tree.ofJson o.toJson) = some o := by
  have hrecord : (Tree.ofJson o.toJson).isRecord
      ["batch_size", "default_sort_key", "default_sort_direction"] = true := rfl
  have hsize : (Tree.ofJson o.toJson).slot? 0 "batch_size" =
      some (.number (some (.int o.batchSize.toNat))) := rfl
  have hpath : (Tree.ofJson o.toJson).slot? 1 "default_sort_key" =
      some (.string (some o.rankingPath)) := rfl
  have hdirection : (Tree.ofJson o.toJson).slot? 2 "default_sort_direction" =
      some (.string (some o.rankingDirection.text)) := rfl
  rw [ofTree?, if_pos hrecord, hsize, hpath, hdirection, Option.bind_eq_bind, Option.bind_some,
    Tree.word?_toNat]
  simp [Tree.string?, Tree.direction?, Direction.ofText?_text]

namespace Config

/-! ### The text -/

theorem fits_toJson (c : Config) : c.toJson.Fits := by
  have hsource : c.source.toJson.Fits := ⟨trivial, trivial, trivial, trivial, trivial⟩
  have hhttp : c.http.toJson.Fits := ⟨Json.fits_word _, trivial, trivial⟩
  have hsearch : c.search.toJson.Fits := ⟨Json.fits_word _, trivial, trivial, trivial⟩
  exact ⟨hsource, hhttp, hsearch, trivial⟩

theorem ofTree?_toJson (c : Config) : ofTree? (Tree.ofJson c.toJson) = some c := by
  have hrecord : (Tree.ofJson c.toJson).isRecord ["source", "http", "search"] = true := rfl
  have hsource : (Tree.ofJson c.toJson).slot? 0 "source" = some (Tree.ofJson c.source.toJson) := rfl
  have hhttp : (Tree.ofJson c.toJson).slot? 1 "http" = some (Tree.ofJson c.http.toJson) := rfl
  have hsearch : (Tree.ofJson c.toJson).slot? 2 "search" = some (Tree.ofJson c.search.toJson) := rfl
  rw [ofTree?, if_pos hrecord, hsource, hhttp, hsearch, Tree.orDefault?, Tree.orDefault?,
    Tree.orDefault?, c.source.ofTree?_toJson, c.http.ofTree?_toJson, c.search.ofTree?_toJson]
  rfl

theorem parse?_render (c : Config) : parse? c.render = some c := by
  rw [parse?, render, Tree.parse?_pretty c.fits_toJson, Option.bind_some, ofTree?_toJson]

/-! ### The file -/

namespace File

/-- What can be written over: a file, or nothing in a directory that is there. -/
inductive Writable : File → Prop where
  | absent : Writable .absent
  | content (bytes : ByteArray) : Writable (.content bytes)

theorem Writable.write {file : File} (hfile : file.Writable) (text : String) :
    file.write text = .ok (.content text.toUTF8) := by
  cases hfile <;> rfl

theorem fromUTF8?_toUTF8 (text : String) : String.fromUTF8? text.toUTF8 = some text := by
  rw [String.fromUTF8?, String.toUTF8, dif_pos text.isValidUTF8]
  rfl

theorem loadStored_render (c : Config) :
    loadStored (.content c.render.toUTF8) = (.content c.render.toUTF8, .ok c) := by
  rw [loadStored, fromUTF8?_toUTF8]
  simp only [parse?_render]

theorem load_render (c : Config) :
    load none (.content c.render.toUTF8) = (.content c.render.toUTF8, .ok c) := by
  rw [load, loadStored_render]
  rfl

/-- A configuration that is saved where it can be is loaded from there, with no override of the
root, as it was; saving what was loaded leaves the file as it is. -/
theorem load_save (c : Config) {file : File} (hfile : file.Writable) :
    ∃ saved, save c file = .ok saved ∧ saved.text? = some c.render ∧
      load none saved = (saved, .ok c) ∧ save c saved = .ok saved := by
  refine ⟨.content c.render.toUTF8, hfile.write c.render, fromUTF8?_toUTF8 c.render,
    load_render c, ?_⟩
  exact (Writable.content _).write c.render

/-- Texts with marks, backslashes, control characters and characters beyond the basic plane, and the
largest words. -/
def awkward : Config where
  source := { rootUrl := "C:\\root\\\"\"", manifestFile := "\x00\x1f\x7f\u2028", listingFile := "" }
  http := { timeoutSeconds := 18446744073709551615, userAgent := "𝄞\t😀\n" }
  search := { batchSize := 0, rankingPath := "\\u0041", rankingDirection := .ascending }

theorem awkward_load_save :
    ∃ saved, save awkward .absent = .ok saved ∧ saved.text? = some awkward.render ∧
      load none saved = (saved, .ok awkward) ∧ save awkward saved = .ok saved :=
  load_save awkward .absent

/-! ### Loading again -/

/-- What is at a path once a configuration has been loaded from it: the default configuration where
a file has been created, and anywhere else what was there before. -/
def afterLoading : File → File
  | absent => content (render {}).toUTF8
  | unreachable => unreachable
  | directory => directory
  | content bytes => content bytes

theorem fst_loadStored (file : File) : (loadStored file).1 = file.afterLoading := by
  cases file with
  | absent => rfl
  | unreachable => rfl
  | directory => rfl
  | content bytes => rfl

/-- A second load finds what the first one has left, and returns the same. -/
theorem loadStored_afterLoading (file : File) :
    loadStored file.afterLoading = (file.afterLoading, (loadStored file).2) := by
  cases file with
  | absent => exact loadStored_render {}
  | unreachable => rfl
  | directory => rfl
  | content bytes => rfl

theorem fst_load (root : Option String) (file : File) :
    (load root file).1 = file.afterLoading :=
  fst_loadStored file

theorem snd_load (root : Option String) (file : File) :
    (load root file).2 = (loadStored file).2.map (withRoot root) := rfl

/-- With no override, what is returned is what is stored. -/
theorem snd_load_none (file : File) : (load none file).2 = (loadStored file).2 := by
  rw [snd_load]
  cases (loadStored file).2 with
  | error e => rfl
  | ok config => rfl

theorem map_eq_error_iff {f : Config → Config} {loaded : Except Error Config} {error : Error} :
    loaded.map f = .error error ↔ loaded = .error error := by
  cases loaded with
  | error e => rfl
  | ok config =>
    constructor
    · intro h
      cases h
    · intro h
      cases h

/-- Whatever is at the path and whatever the root is overridden with: a load leaves what is there,
or creates the default configuration, and in neither case does the override have a part in it; it
fails as it fails without the override, and what it returns differs in the root address only; and a
second load leaves and returns the same. -/
theorem load_stable (root : Option String) (file : File) :
    (load root file).1 = file.afterLoading ∧
      (∀ error, (load root file).2 = .error error ↔ (load none file).2 = .error error) ∧
      (∀ url, (load (some url) file).2 = (load none file).2.map fun config ↦
        { config with source := { config.source with rootUrl := url } }) ∧
      load root (load root file).1 = (file.afterLoading, (load root file).2) := by
  refine ⟨fst_load root file, fun error ↦ ?_, fun url ↦ ?_, ?_⟩
  · rw [snd_load_none, snd_load, map_eq_error_iff]
  · rw [snd_load_none, snd_load]
    rfl
  · rw [fst_load, load, loadStored_afterLoading, snd_load]

end File

end Config

end ShardSearch
