/-!
Cutting a text at the first occurrence of a mark. `cutAt?` gives what stands before the mark and
what stands after it, and nothing where the mark does not occur. That the occurrence is the first
one means that the text before it with the mark up to its last character has none
(`cutAt?_eq_some_iff`).
-/

set_option autoImplicit false

namespace ShardSearch.Text

def cutAt? (mark : List Char) : List Char → Option (List Char × List Char)
  | [] => if mark.isEmpty then some ([], []) else none
  | c :: rest =>
    if mark.isPrefixOf (c :: rest) then some ([], (c :: rest).drop mark.length)
    else (cutAt? mark rest).map fun (before, after) ↦ (c :: before, after)

/-- The mark occurs in the text. -/
def occursIn (mark cs : List Char) : Bool := (cutAt? mark cs).isSome

theorem append_of_cutAt? {mark cs before after : List Char}
    (h : cutAt? mark cs = some (before, after)) : before ++ mark ++ after = cs := by
  induction cs generalizing before with
  | nil =>
    simp only [cutAt?, List.isEmpty_iff] at h
    split at h
    · next hm => cases h; simp [hm]
    · cases h
  | cons c rest ih =>
    simp only [cutAt?] at h
    split at h
    · next hp =>
      cases h
      obtain ⟨tail, htail⟩ := List.isPrefixOf_iff_prefix.mp hp
      simp [← htail]
    · obtain ⟨⟨b, a⟩, hb, heq⟩ := Option.map_eq_some_iff.mp h
      cases heq
      simp [← ih hb]

theorem cutAt?_eq_none_iff {mark cs : List Char} : cutAt? mark cs = none ↔ ¬ mark <:+: cs := by
  induction cs with
  | nil => simp [cutAt?]
  | cons c rest ih =>
    rw [cutAt?, List.infix_cons_iff, ← List.isPrefixOf_iff_prefix]
    split
    · next h => simp [h]
    · next h => simp [h, ih]

theorem not_infix_dropLast {mark : List Char} (hmark : mark ≠ []) : ¬ mark <:+: mark.dropLast := by
  intro h
  have hlength := h.length_le
  have := List.length_pos_iff.mpr hmark
  rw [List.length_dropLast] at hlength
  omega

theorem prefix_of_dropLast (cs mark after : List Char) :
    cs ++ mark.dropLast <+: cs ++ mark ++ after := by
  rw [List.append_assoc]
  exact (List.prefix_append_right_inj cs).mpr
    (List.prefix_append_of_prefix (List.dropLast_prefix mark))

/-- A mark that begins before another one has its end there, too, or before it. -/
theorem prefix_append_dropLast {mark cs after : List Char} (hne : cs ≠ [])
    (h : mark <+: cs ++ mark ++ after) : mark <+: cs ++ mark.dropLast := by
  refine List.prefix_of_prefix_length_le h (prefix_of_dropLast cs mark after) ?_
  have := List.length_pos_iff.mpr hne
  rw [List.length_append, List.length_dropLast]
  omega

theorem not_infix_of_cutAt? {mark cs before after : List Char} (hmark : mark ≠ [])
    (h : cutAt? mark cs = some (before, after)) : ¬ mark <:+: before ++ mark.dropLast := by
  induction cs generalizing before with
  | nil =>
    rw [cutAt?, if_neg (by simpa using hmark)] at h
    cases h
  | cons c rest ih =>
    rw [cutAt?] at h
    split at h
    · cases h
      exact not_infix_dropLast hmark
    · next hstarts =>
      rw [List.isPrefixOf_iff_prefix] at hstarts
      obtain ⟨⟨before', after'⟩, hrest, heq⟩ := Option.map_eq_some_iff.mp h
      cases heq
      rw [List.cons_append, List.infix_cons_iff]
      rintro (hfirst | hlater)
      · refine hstarts (hfirst.trans ?_)
        rw [← append_of_cutAt? hrest]
        exact prefix_of_dropLast (c :: before') mark after
      · exact ih hrest hlater

theorem cutAt?_append {mark before : List Char} (hmark : mark ≠ [])
    (h : ¬ mark <:+: before ++ mark.dropLast) (after : List Char) :
    cutAt? mark (before ++ mark ++ after) = some (before, after) := by
  induction before with
  | nil =>
    obtain ⟨c, rest, rfl⟩ := List.exists_cons_of_ne_nil hmark
    rw [List.nil_append, List.cons_append, cutAt?, if_pos (by simp)]
    simp
  | cons b before ih =>
    rw [List.cons_append, List.infix_cons_iff, not_or] at h
    have hfirst : ¬ mark <+: b :: (before ++ mark ++ after) := fun hstarts ↦
      h.1 (prefix_append_dropLast (List.cons_ne_nil b before) hstarts)
    rw [List.cons_append, List.cons_append, cutAt?,
      if_neg (by rwa [List.isPrefixOf_iff_prefix]), ih h.2]
    rfl

theorem cutAt?_eq_some_iff {mark cs before after : List Char} (hmark : mark ≠ []) :
    cutAt? mark cs = some (before, after) ↔
      cs = before ++ mark ++ after ∧ ¬ mark <:+: before ++ mark.dropLast := by
  constructor
  · exact fun h ↦ ⟨(append_of_cutAt? h).symm, not_infix_of_cutAt? hmark h⟩
  · rintro ⟨rfl, h⟩
    exact cutAt?_append hmark h after

end ShardSearch.Text
