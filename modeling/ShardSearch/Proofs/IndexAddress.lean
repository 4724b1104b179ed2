import Mathlib.Data.List.Nodup
import ShardSearch.Manifest.Route

/-!
Addresses of index files tell the files apart. An address is put together without any marks between
its parts: the base and the template are free text, and so is the version. It is taken apart from
both ends. What is the same in all addresses goes first; of what is left, the last slash stands
before the encoded shard key and the one before it ahead of the directory, since neither of the two
has a slash in it (`eq_of_append_slash`). The rest is the filled template, which gives its number
away as soon as it has a place for it: numbers of different lengths make texts of different lengths
(`fillTemplate_injective`).
-/

set_option autoImplicit false

namespace ShardSearch

/-! ### Shard keys -/

/-- Two values begin with the same two characters, or both are shorter than that. -/
def SameShard (v w : String) : Prop :=
  v.toList.length < shardKeyLength ∧ w.toList.length < shardKeyLength ∨
    shardKeyLength ≤ v.toList.length ∧ shardKeyLength ≤ w.toList.length ∧
      v.toList.take shardKeyLength = w.toList.take shardKeyLength

theorem shardKey_of_le {v : String} (h : shardKeyLength ≤ v.toList.length) :
    shardKey v = String.ofList (v.toList.take shardKeyLength) := if_pos h

theorem shardKey_of_lt {v : String} (h : v.toList.length < shardKeyLength) : shardKey v = "_" :=
  if_neg (Nat.not_le_of_lt h)

/-- The key of short values is shorter than any other one. -/
theorem shardKey_ne {v w : String} (hv : v.toList.length < shardKeyLength)
    (hw : shardKeyLength ≤ w.toList.length) : shardKey v ≠ shardKey w := by
  rw [shardKey_of_lt hv, shardKey_of_le hw]
  intro h
  have hlength := congrArg (fun s ↦ s.toList.length) h
  simp only [String.toList_ofList, List.length_take, Nat.min_eq_left hw] at hlength
  exact absurd hlength (by decide)

theorem shardKey_eq_iff {v w : String} : shardKey v = shardKey w ↔ SameShard v w := by
  rcases Nat.lt_or_ge v.toList.length shardKeyLength with hv | hv <;>
    rcases Nat.lt_or_ge w.toList.length shardKeyLength with hw | hw
  · exact iff_of_true ((shardKey_of_lt hv).trans (shardKey_of_lt hw).symm) (.inl ⟨hv, hw⟩)
  · exact iff_of_false (shardKey_ne hv hw) (by simp only [SameShard]; omega)
  · exact iff_of_false (shardKey_ne hw hv).symm (by simp only [SameShard]; omega)
  · rw [shardKey_of_le hv, shardKey_of_le hw, String.ofList_inj, SameShard]
    simp only [hv, hw, true_and, Nat.not_lt.mpr hv, false_and, false_or]

/-! ### Encoded keys -/

namespace Text.Percent

theorem hexDigit_injective {m n : Nat} (hm : m < 16) (hn : n < 16)
    (h : hexDigit m = hexDigit n) : m = n := by
  have hall : ∀ m n : Fin 16, hexDigit m = hexDigit n → m = n := by decide
  exact congrArg Fin.val (hall ⟨m, hm⟩ ⟨n, hn⟩ h)

theorem toNat_ofNat_of_ascii {n : Nat} (h : n < 0x80) : (Char.ofNat n).toNat = n := by
  have hall : ∀ n : Fin 0x80, (Char.ofNat n).toNat = n := by decide
  exact hall ⟨n, h⟩

/-- A byte is written as an unreserved character, or as two digits behind a percent sign. -/
theorem encodeByte_cases (b : UInt8) :
    (∃ c, encodeByte b = [c] ∧ isUnreserved c = true ∧ c.toNat = b.toNat) ∨
      encodeByte b = ['%', hexDigit (b.toNat / 16), hexDigit (b.toNat % 16)] := by
  rw [encodeByte]
  split
  · next h =>
    rw [Bool.and_eq_true, decide_eq_true_eq] at h
    exact .inl ⟨_, rfl, h.2, toNat_ofNat_of_ascii h.1⟩
  · exact .inr rfl

/-- What follows a byte can be told from its written form, since a percent sign is reserved. -/
theorem encodeByte_append_inj {b c : UInt8} {x y : List Char}
    (h : encodeByte b ++ x = encodeByte c ++ y) : b = c ∧ x = y := by
  have hpercent : isUnreserved '%' = false := by decide
  rcases encodeByte_cases b with ⟨d, hb, hd, hdnat⟩ | hb <;>
    rcases encodeByte_cases c with ⟨e, hc, he, henat⟩ | hc <;>
    rw [hb, hc] at h <;> simp only [List.cons_append, List.nil_append, List.cons.injEq] at h
  · refine ⟨UInt8.toNat_inj.mp ?_, h.2⟩
    rw [← hdnat, ← henat, h.1]
  · rw [h.1, hpercent] at hd
    cases hd
  · rw [← h.1, hpercent] at he
    cases he
  · have hblt := b.toNat_lt
    have hclt := c.toNat_lt
    have hhigh := hexDigit_injective (by omega) (by omega) h.2.1
    have hlow := hexDigit_injective (by omega) (by omega) h.2.2.1
    exact ⟨UInt8.toNat_inj.mp (by omega), h.2.2.2⟩

theorem encodeBytes_inj {first second : List UInt8}
    (h : first.flatMap encodeByte = second.flatMap encodeByte) : first = second := by
  have hne : ∀ b, encodeByte b ≠ [] := by
    intro b
    rcases encodeByte_cases b with ⟨c, hb, -⟩ | hb <;> simp [hb]
  induction first generalizing second with
  | nil =>
    cases second with
    | nil => rfl
    | cons c second => simp [hne c] at h
  | cons b first ih =>
    cases second with
    | nil => simp [hne b] at h
    | cons c second =>
      rw [List.flatMap_cons, List.flatMap_cons] at h
      obtain ⟨rfl, hrest⟩ := encodeByte_append_inj h
      rw [ih hrest]

theorem encodeChars_inj {cs ds : List Char} (h : encodeChars cs = encodeChars ds) : cs = ds := by
  have hbytes : cs.utf8Encode = ds.utf8Encode := congrArg List.toByteArray (encodeBytes_inj h)
  rw [← String.toByteArray_ofList, ← String.toByteArray_ofList, String.toByteArray_inj,
    String.ofList_inj] at hbytes
  exact hbytes

theorem slash_not_mem_encodeChars (cs : List Char) : '/' ∉ encodeChars cs := by
  have hslash : isUnreserved '/' = false := by decide
  have hdigits : ∀ n : Fin 16, hexDigit n ≠ '/' := by decide
  rw [encodeChars, List.mem_flatMap]
  rintro ⟨b, -, hmem⟩
  rcases encodeByte_cases b with ⟨c, hb, hc, -⟩ | hb <;> rw [hb] at hmem
  · rw [← List.mem_singleton.mp hmem, hslash] at hc
    cases hc
  · have hb256 := b.toNat_lt
    simp only [List.mem_cons, List.not_mem_nil, or_false] at hmem
    rcases hmem with hmem | hmem | hmem
    · exact absurd hmem (by decide)
    · exact hdigits ⟨b.toNat / 16, by omega⟩ hmem.symm
    · exact hdigits ⟨b.toNat % 16, by omega⟩ hmem.symm

end Text.Percent

/-! ### Directories -/

namespace Field

theorem indexDirectory_inj {f g : Field} (h : f.indexDirectory = g.indexDirectory) : f = g := by
  have hnodup : (all.map indexDirectory).Nodup := by decide +kernel
  exact List.inj_on_of_nodup_map hnodup (mem_all f) (mem_all g) h

theorem slash_not_mem_indexDirectory (f : Field) : '/' ∉ f.indexDirectory.toList := by
  cases f <;> decide +kernel

end Field

/-- What stands before the last mark of a text, and what stands after it, are determined. -/
theorem eq_of_append_mark {α : Type} {mark : α} {first second tail rest : List α}
    (htail : mark ∉ tail) (hrest : mark ∉ rest)
    (h : first ++ mark :: tail = second ++ mark :: rest) : first = second ∧ tail = rest := by
  -- Otherwise one of the two last marks stands in the text behind the other one.
  rcases List.append_eq_append_iff.mp h with ⟨between, hsecond, hmark⟩ | ⟨between, hfirst, hmark⟩
  · cases between with
    | nil => exact ⟨by simpa using hsecond.symm, (List.cons.inj hmark).2⟩
    | cons c between =>
      refine absurd ?_ htail
      rw [(List.cons.inj hmark).2]
      simp
  · cases between with
    | nil => exact ⟨by simpa using hfirst, (List.cons.inj hmark).2.symm⟩
    | cons c between =>
      refine absurd ?_ hrest
      rw [(List.cons.inj hmark).2]
      simp

namespace Manifest

/-! ### Repositories -/

/-- The two braces that stand for the number of a repository. -/
def placeholder : List Char := ['\x7b', '\x7d']

section Templates

variable {first second template : List Char}

/-- A place for the number that is not at the head of a template is behind it. -/
theorem placeholder_isInfix_of_cons {c : Char} {rest : List Char}
    (hhead : ∀ tail, c = '\x7b' → rest = '\x7d' :: tail → False)
    (h : placeholder <:+: c :: rest) : placeholder <:+: rest := by
  rcases List.infix_cons_iff.mp h with ⟨tail, htail⟩ | hrest
  · obtain ⟨hc, hrest⟩ := List.cons.inj htail
    exact (hhead tail hc.symm hrest.symm).elim
  · exact hrest

theorem length_fillTemplate_le (h : first.length ≤ second.length) (template : List Char) :
    (fillTemplate first template).length ≤ (fillTemplate second template).length := by
  fun_induction fillTemplate first template with
  | case1 rest ih =>
    rw [fillTemplate, List.length_append, List.length_append]
    omega
  | case2 c rest hhead ih =>
    rw [fillTemplate, List.length_cons, List.length_cons]
    · omega
    · exact hhead
  | case3 => exact Nat.le_refl _

/-- A template with a place for a number is longer with a longer number in it. -/
theorem length_fillTemplate_lt (h : first.length < second.length)
    (hplace : placeholder <:+: template) :
    (fillTemplate first template).length < (fillTemplate second template).length := by
  fun_induction fillTemplate first template with
  | case1 rest ih =>
    have hle := length_fillTemplate_le (Nat.le_of_lt h) rest
    rw [fillTemplate, List.length_append, List.length_append]
    omega
  | case2 c rest hhead ih =>
    have hlt := ih (placeholder_isInfix_of_cons hhead hplace)
    rw [fillTemplate, List.length_cons, List.length_cons]
    · omega
    · exact hhead
  | case3 => exact absurd (List.infix_nil.mp hplace) (List.cons_ne_nil _ _)

theorem length_eq_of_fillTemplate (hplace : placeholder <:+: template)
    (h : fillTemplate first template = fillTemplate second template) :
    first.length = second.length := by
  have hlength := congrArg List.length h
  rcases Nat.lt_trichotomy first.length second.length with hlt | heq | hlt
  · exact absurd hlength (Nat.ne_of_lt (length_fillTemplate_lt hlt hplace))
  · exact heq
  · exact absurd hlength.symm (Nat.ne_of_lt (length_fillTemplate_lt hlt hplace))

/-- A template with a place for a text gives the text away. -/
theorem fillTemplate_injective (hplace : placeholder <:+: template)
    (h : fillTemplate first template = fillTemplate second template) : first = second := by
  have hlength := length_eq_of_fillTemplate hplace h
  fun_induction fillTemplate first template with
  | case1 rest ih =>
    rw [fillTemplate] at h
    exact List.append_inj_left h hlength
  | case2 c rest hhead ih =>
    rw [fillTemplate] at h
    · exact ih (placeholder_isInfix_of_cons hhead hplace) (List.cons.inj h).2
    · exact hhead
  | case3 => exact absurd (List.infix_nil.mp hplace) (List.cons_ne_nil _ _)

end Templates

theorem toList_toString_injective {m n : Nat} (h : (toString m).toList = (toString n).toList) :
    m = n := by
  rw [Nat.toString_eq_ofList_toDigits, Nat.toString_eq_ofList_toDigits, String.toList_ofList,
    String.toList_ofList] at h
  calc
    m = Nat.ofDigitChars 10 (Nat.toDigits 10 m) 0 := Nat.ofDigitChars_ten_toDigits.symm
    _ = Nat.ofDigitChars 10 (Nat.toDigits 10 n) 0 := by rw [h]
    _ = n := Nat.ofDigitChars_ten_toDigits

variable {m : Manifest} {r s : Nat} {f g : Field} {v w : String}

theorem repositoryUrl_injective (hplace : placeholder <:+: m.repositoryTemplate.toList)
    (h : m.repositoryUrl r = m.repositoryUrl s) : r = s := by
  have hchars := congrArg String.toList h
  rw [repositoryUrl, repositoryUrl, String.toList_append, String.toList_append,
    List.append_cancel_left_eq, String.toList_ofList, String.toList_ofList] at hchars
  exact toList_toString_injective (fillTemplate_injective hplace hchars)

theorem versioned_injective {url other : String} (h : m.versioned url = m.versioned other) :
    url = other := by
  unfold versioned at h
  cases hversion : m.version? with
  | none =>
    rw [hversion] at h
    exact h
  | some version =>
    simp only [hversion] at h
    have hchars := congrArg String.toList h
    simp only [String.toList_append, List.append_cancel_right_eq] at hchars
    exact String.toList_inj.mp hchars

/-- An index file is in a directory of its repository, under its encoded key. -/
theorem toList_indexPath (m : Manifest) (r : Nat) (f : Field) (v : String) :
    (m.repositoryUrl r ++ "/index/" ++ f.indexDirectory ++ "/" ++
        Text.Percent.encode (shardKey v) ++ ".json").toList =
      (m.repositoryUrl r).toList ++ "/index".toList ++ '/' :: f.indexDirectory.toList ++
        '/' :: (Text.Percent.encodeChars (shardKey v).toList ++ ".json".toList) := by
  have hslash : "/".toList = ['/'] := rfl
  have hindex : "/index/".toList = "/index".toList ++ ['/'] := rfl
  simp only [String.toList_append, Text.Percent.toList_encode, hslash, hindex, List.append_assoc,
    List.cons_append, List.nil_append]

theorem slash_not_mem_fileName (v : String) :
    '/' ∉ Text.Percent.encodeChars (shardKey v).toList ++ ".json".toList := by
  rw [List.mem_append, not_or]
  exact ⟨Text.Percent.slash_not_mem_encodeChars _, by decide⟩

/-- The address of an index file tells the repository, the field and the shard key. -/
theorem of_indexFile_eq (hplace : placeholder <:+: m.repositoryTemplate.toList)
    (h : m.indexFile r f v = m.indexFile s g w) : r = s ∧ f = g ∧ shardKey v = shardKey w := by
  have hpath := congrArg String.toList (versioned_injective h)
  rw [toList_indexPath, toList_indexPath] at hpath
  obtain ⟨hdirectory, hname⟩ :=
    eq_of_append_mark (slash_not_mem_fileName v) (slash_not_mem_fileName w) hpath
  obtain ⟨hroot, hfield⟩ := eq_of_append_mark f.slash_not_mem_indexDirectory
    g.slash_not_mem_indexDirectory hdirectory
  refine ⟨repositoryUrl_injective hplace ?_, Field.indexDirectory_inj ?_, ?_⟩
  · exact String.toList_inj.mp (List.append_cancel_right hroot)
  · exact String.toList_inj.mp hfield
  · exact String.toList_inj.mp (Text.Percent.encodeChars_inj (List.append_cancel_right hname))

/-- Where the template has a place for the number of a repository, two index files have the same
address just if they are of the same repository and field and the values have the same shard key.
So the copies of an index file, of which there are as many as repositories with an index and at
least one, have addresses of their own. -/
theorem indexFile_eq_iff (hplace : placeholder <:+: m.repositoryTemplate.toList) :
    (∀ r s f g v w, m.indexFile r f v = m.indexFile s g w ↔ r = s ∧ f = g ∧ SameShard v w) ∧
      ∀ f v, (m.indexUrls f v).Nodup ∧ (m.indexUrls f v).length = max m.indexCopies 1 := by
  refine ⟨fun r s f g v w ↦ ⟨fun h ↦ ?_, ?_⟩, fun f v ↦ ⟨?_, length_indexUrls m f v⟩⟩
  · rw [← shardKey_eq_iff]
    exact of_indexFile_eq hplace h
  · rintro ⟨rfl, rfl, hshard⟩
    rw [indexFile, indexFile, shardKey_eq_iff.mpr hshard]
  · rw [indexUrls, List.nodup_map_iff fun r s h ↦ (of_indexFile_eq hplace h).1]
    exact List.nodup_range'

/-- A template in which the number stands twice and something after it. -/
def twofoldManifest : Manifest :=
  ⟨0, 3, "r1", "\x7b\x7d/\x7b\x7d1", [], [], none, 1, some (.string "a/b?c")⟩

theorem twofold_indexFile_eq_iff : placeholder <:+: twofoldManifest.repositoryTemplate.toList ∧
    twofoldManifest.indexFile 12 .guildName "/?x" = twofoldManifest.indexFile 12 .guildName "/?y" ∧
    twofoldManifest.indexFile 1 .guildName "_" ≠ twofoldManifest.indexFile 1 .guildName "__" ∧
    (twofoldManifest.indexUrls .profileTag "日本語").Nodup ∧
    (twofoldManifest.indexUrls .profileTag "日本語").length = 3 := by
  have hplace : placeholder <:+: twofoldManifest.repositoryTemplate.toList := by decide +kernel
  obtain ⟨hfile, hcopies⟩ := indexFile_eq_iff hplace
  refine ⟨hplace, ?_, fun h ↦ ?_, hcopies .profileTag "日本語"⟩
  · exact (hfile 12 12 .guildName .guildName "/?x" "/?y").mpr ⟨rfl, rfl, .inr (by decide)⟩
  · have hshard := ((hfile 1 1 .guildName .guildName "_" "__").mp h).2.2
    unfold SameShard at hshard
    revert hshard
    decide

end Manifest

end ShardSearch
