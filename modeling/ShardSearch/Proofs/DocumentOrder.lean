import ShardSearch.Document.Order
import ShardSearch.Proofs.StableSort

/-!
Whether a ranking orders documents. Comparing two documents is always fair to both: a document is
tied with itself, and the other way round the answer is the opposite one. Three documents need not
be in order, since two texts that both begin with numbers are compared by these and any other two by
their characters. `Torn` is the one way in which the two orders get into conflict: a text without a
number stands between two with numbers, and the numbers are not in the order of the texts. Documents
are totally ordered, up to ties, just when no three of them are torn (`totalPreorder_iff`).
-/

set_option autoImplicit false

namespace ShardSearch

open Decimal (Binary64)

theorem Decimal.Binary64.isLE_totalCompare_iff {x y : Binary64} :
    (x.totalCompare y).isLE = true ↔ x.rank ≤ y.rank :=
  Int.isLE_compare

/-! ### Texts -/

namespace Text

section Numbers

variable {first second third : List Char} {x y z : Binary64}

theorem displayOrder_of_numbers (hx : leadingNumber? first = some x)
    (hy : leadingNumber? second = some y) : displayOrder first second = x.totalCompare y := by
  rw [displayOrder, hx, hy]

theorem displayOrder_of_left (h : leadingNumber? first = none) :
    displayOrder first second = compare first second := by
  rw [displayOrder, h]

theorem displayOrder_of_right (h : leadingNumber? second = none) :
    displayOrder first second = compare first second := by
  rw [displayOrder, h]
  cases leadingNumber? first <;> rfl

theorem displayOrder_swap (first second : List Char) :
    (displayOrder first second).swap = displayOrder second first := by
  cases hfirst : leadingNumber? first with
  | none =>
    rw [displayOrder_of_left hfirst, displayOrder_of_right hfirst]
    exact Std.OrientedOrd.eq_swap.symm
  | some x =>
    cases hsecond : leadingNumber? second with
    | none =>
      rw [displayOrder_of_right hsecond, displayOrder_of_left hsecond]
      exact Std.OrientedOrd.eq_swap.symm
    | some y =>
      rw [displayOrder_of_numbers hfirst hsecond, displayOrder_of_numbers hsecond hfirst,
        Binary64.totalCompare_swap]

theorem displayOrder_self (text : List Char) : displayOrder text text = .eq := by
  cases htext : leadingNumber? text with
  | none =>
    rw [displayOrder_of_left htext]
    exact Std.ReflCmp.compare_self
  | some x =>
    rw [displayOrder_of_numbers htext htext]
    exact Binary64.totalCompare_eq_iff.mpr rfl

end Numbers

/-- Two texts begin with numbers and a third one, between them, does not; and the number of the
first one is no less than that of the last. -/
structure Torn (first between last : List Char) : Prop where
  unnumbered : leadingNumber? between = none
  first_lt : compare first between = .lt
  lt_last : compare between last = .lt
  numbers : ∃ x y, leadingNumber? first = some x ∧ leadingNumber? last = some y ∧ y.rank ≤ x.rank

section Torn

variable {first second third : List Char}

/-- Texts of which one begins with a number and one does not are different. -/
theorem lt_of_isLE {x : Binary64} (hle : (compare first second).isLE = true)
    (h : leadingNumber? first = some x ∧ leadingNumber? second = none ∨
      leadingNumber? first = none ∧ leadingNumber? second = some x) :
    compare first second = .lt := by
  have hne : compare first second ≠ .eq := by
    intro heq
    rw [Std.LawfulEqOrd.eq_of_compare heq] at h
    rcases h with ⟨hsome, hnone⟩ | ⟨hnone, hsome⟩
    · rw [hsome] at hnone
      cases hnone
    · rw [hsome] at hnone
      cases hnone
  exact (Ordering.isLE_iff_eq_lt_or_eq_eq.mp hle).resolve_right hne

theorem lt_of_not_isLE (h : ¬ (compare first second).isLE = true) :
    compare second first = .lt := by
  rw [Ordering.isLE_iff_ne_gt, not_not] at h
  exact Std.OrientedCmp.gt_iff_lt.mp h

/-- Three texts that are not in order are torn, in some arrangement. -/
theorem exists_torn (hleft : (displayOrder first second).isLE = true)
    (hright : (displayOrder second third).isLE = true)
    (hends : ¬ (displayOrder first third).isLE = true) :
    Torn first second third ∨ Torn second third first ∨ Torn third first second := by
  -- Only two numbers and one other text are compared both by numbers and by characters.
  cases hfirst : leadingNumber? first with
  | none =>
    rw [displayOrder_of_left hfirst] at hleft hends
    cases hsecond : leadingNumber? second with
    | none =>
      rw [displayOrder_of_left hsecond] at hright
      exact absurd (Std.TransCmp.isLE_trans hleft hright) hends
    | some y =>
      cases hthird : leadingNumber? third with
      | none =>
        rw [displayOrder_of_right hthird] at hright
        exact absurd (Std.TransCmp.isLE_trans hleft hright) hends
      | some z =>
        rw [displayOrder_of_numbers hsecond hthird, Binary64.isLE_totalCompare_iff] at hright
        exact .inr (.inr ⟨hfirst, lt_of_not_isLE hends, lt_of_isLE hleft (.inr ⟨hfirst, hsecond⟩),
          z, y, hthird, hsecond, hright⟩)
  | some x =>
    cases hsecond : leadingNumber? second with
    | none =>
      rw [displayOrder_of_right hsecond] at hleft
      rw [displayOrder_of_left hsecond] at hright
      cases hthird : leadingNumber? third with
      | none =>
        rw [displayOrder_of_right hthird] at hends
        exact absurd (Std.TransCmp.isLE_trans hleft hright) hends
      | some z =>
        rw [displayOrder_of_numbers hfirst hthird, Binary64.isLE_totalCompare_iff] at hends
        exact .inl ⟨hsecond, lt_of_isLE hleft (.inl ⟨hfirst, hsecond⟩),
          lt_of_isLE hright (.inr ⟨hsecond, hthird⟩), x, z, hfirst, hthird, by omega⟩
    | some y =>
      rw [displayOrder_of_numbers hfirst hsecond, Binary64.isLE_totalCompare_iff] at hleft
      cases hthird : leadingNumber? third with
      | none =>
        rw [displayOrder_of_right hthird] at hright hends
        exact .inr (.inl ⟨hthird, lt_of_isLE hright (.inl ⟨hsecond, hthird⟩),
          lt_of_not_isLE hends, y, x, hsecond, hfirst, hleft⟩)
      | some z =>
        rw [displayOrder_of_numbers hsecond hthird, Binary64.isLE_totalCompare_iff] at hright
        rw [displayOrder_of_numbers hfirst hthird, Binary64.isLE_totalCompare_iff] at hends
        exact absurd (Int.le_trans hleft hright) hends

/-- Torn texts go round in a circle. -/
theorem Torn.circle (h : Torn first second third) :
    displayOrder first second = .lt ∧ displayOrder second third = .lt ∧
      (displayOrder third first).isLE = true := by
  obtain ⟨x, z, hx, hz, hle⟩ := h.numbers
  refine ⟨?_, ?_, ?_⟩
  · rw [displayOrder_of_right h.unnumbered, h.first_lt]
  · rw [displayOrder_of_left h.unnumbered, h.lt_last]
  · rw [displayOrder_of_numbers hz hx, Binary64.isLE_totalCompare_iff]
    exact hle

end Torn

end Text

/-! ### Documents -/

/-- A ranking that orders the documents at hand totally, up to ties. -/
structure Document.TotalPreorder (ranking : Ranking) (documents : List Document) : Prop where
  total : ∀ a ∈ documents, ∀ b ∈ documents,
    (compareBy ranking a b).isLE || (compareBy ranking b a).isLE
  trans : ∀ a ∈ documents, ∀ b ∈ documents, ∀ c ∈ documents,
    (compareBy ranking a b).isLE → (compareBy ranking b c).isLE → (compareBy ranking a c).isLE

namespace Document

instance (ranking : Ranking) (documents : List Document) :
    Decidable (TotalPreorder ranking documents) :=
  decidable_of_iff
    ((∀ a ∈ documents, ∀ b ∈ documents,
        (compareBy ranking a b).isLE || (compareBy ranking b a).isLE) ∧
      ∀ a ∈ documents, ∀ b ∈ documents, ∀ c ∈ documents,
        (compareBy ranking a b).isLE → (compareBy ranking b c).isLE → (compareBy ranking a c).isLE)
    ⟨fun h ↦ ⟨h.1, h.2⟩, fun h ↦ ⟨h.total, h.trans⟩⟩

theorem TotalPreorder.of_subset {ranking : Ranking} {documents fewer : List Document}
    (h : TotalPreorder ranking documents) (hsub : ∀ d ∈ fewer, d ∈ documents) :
    TotalPreorder ranking fewer where
  total a ha b hb := h.total a (hsub a ha) b (hsub b hb)
  trans a ha b hb c hc := h.trans a (hsub a ha) b (hsub b hb) c (hsub c hc)

/-- Three documents are torn if the texts that they are ranked by are. -/
def Torn (field : Field) (a b c : Document) : Prop :=
  ∃ first between last, rankingText? field a = some first ∧
    rankingText? field b = some between ∧ rankingText? field c = some last ∧
    Text.Torn first between last

section Laws

variable {ranking : Ranking} {a b c : Document} {first second : List Char}

theorem compareBy_of_texts (ha : rankingText? ranking.field a = some first)
    (hb : rankingText? ranking.field b = some second) :
    compareBy ranking a b = ranking.direction.apply (Text.displayOrder first second) := by
  rw [compareBy, ha, hb]

theorem compareBy_swap (ranking : Ranking) (a b : Document) :
    (compareBy ranking a b).swap = compareBy ranking b a := by
  cases ha : rankingText? ranking.field a with
  | none => cases hb : rankingText? ranking.field b <;> simp [compareBy, ha, hb]
  | some first =>
    cases hb : rankingText? ranking.field b with
    | none => simp [compareBy, ha, hb]
    | some second =>
      rw [compareBy_of_texts ha hb, compareBy_of_texts hb ha,
        ← Text.displayOrder_swap first second]
      cases ranking.direction <;> rfl

theorem compareBy_self (ranking : Ranking) (d : Document) : compareBy ranking d d = .eq := by
  cases hd : rankingText? ranking.field d with
  | none => simp [compareBy, hd]
  | some text =>
    rw [compareBy_of_texts hd hd, Text.displayOrder_self]
    cases ranking.direction <;> rfl

/-- What comes before a document with a text has a text itself. -/
theorem exists_text_of_isLE (hle : (compareBy ranking a b).isLE = true)
    (hb : rankingText? ranking.field b = some second) :
    ∃ first, rankingText? ranking.field a = some first := by
  cases ha : rankingText? ranking.field a with
  | none =>
    rw [compareBy, ha, hb] at hle
    cases hle
  | some first => exact ⟨first, rfl⟩

theorem exists_text_of_not_isLE (h : ¬ (compareBy ranking a b).isLE = true) :
    ∃ second, rankingText? ranking.field b = some second := by
  cases hb : rankingText? ranking.field b with
  | none =>
    refine absurd ?_ h
    cases ha : rankingText? ranking.field a <;> simp [compareBy, ha, hb]
  | some second => exact ⟨second, rfl⟩

/-- Documents are in order where no three are torn. -/
theorem isLE_trans_of_untorn {documents : List Document}
    (h : ∀ a ∈ documents, ∀ b ∈ documents, ∀ c ∈ documents, ¬ Torn ranking.field a b c)
    (ha : a ∈ documents) (hb : b ∈ documents) (hc : c ∈ documents)
    (hleft : (compareBy ranking a b).isLE = true) (hright : (compareBy ranking b c).isLE = true) :
    (compareBy ranking a c).isLE = true := by
  by_contra hends
  obtain ⟨third, htextC⟩ := exists_text_of_not_isLE hends
  obtain ⟨second, htextB⟩ := exists_text_of_isLE hright htextC
  obtain ⟨first, htextA⟩ := exists_text_of_isLE hleft htextB
  rw [compareBy_of_texts htextA htextB] at hleft
  rw [compareBy_of_texts htextB htextC] at hright
  rw [compareBy_of_texts htextA htextC] at hends
  cases hdirection : ranking.direction with
  | ascending =>
    rw [hdirection] at hleft hright hends
    rcases Text.exists_torn hleft hright hends with htorn | htorn | htorn
    · exact h a ha b hb c hc ⟨_, _, _, htextA, htextB, htextC, htorn⟩
    · exact h b hb c hc a ha ⟨_, _, _, htextB, htextC, htextA, htorn⟩
    · exact h c hc a ha b hb ⟨_, _, _, htextC, htextA, htextB, htorn⟩
  | descending =>
    rw [hdirection, Direction.apply, Text.displayOrder_swap] at hleft hright hends
    rcases Text.exists_torn hright hleft hends with htorn | htorn | htorn
    · exact h c hc b hb a ha ⟨_, _, _, htextC, htextB, htextA, htorn⟩
    · exact h b hb a ha c hc ⟨_, _, _, htextB, htextA, htextC, htorn⟩
    · exact h a ha c hc b hb ⟨_, _, _, htextA, htextC, htextB, htorn⟩

/-- Torn documents go round in a circle, one way or the other. -/
theorem Torn.circle (h : Torn ranking.field a b c) :
    (compareBy ranking c a).isLE = true ∧ (compareBy ranking a b).isLE = true ∧
        ¬ (compareBy ranking c b).isLE = true ∨
      (compareBy ranking b a).isLE = true ∧ (compareBy ranking a c).isLE = true ∧
        ¬ (compareBy ranking b c).isLE = true := by
  obtain ⟨first, between, last, ha, hb, hc, htorn⟩ := h
  obtain ⟨hfirst, hlast, hround⟩ := htorn.circle
  rw [compareBy_of_texts hc ha, compareBy_of_texts ha hb, compareBy_of_texts hc hb,
    compareBy_of_texts hb ha, compareBy_of_texts ha hc, compareBy_of_texts hb hc]
  cases ranking.direction with
  | ascending =>
    refine .inl ⟨hround, by rw [Direction.apply, hfirst]; rfl, ?_⟩
    rw [Direction.apply, ← Text.displayOrder_swap, hlast]
    decide
  | descending =>
    refine .inr ⟨?_, ?_, ?_⟩
    · rw [Direction.apply, Text.displayOrder_swap, hfirst]
      rfl
    · rw [Direction.apply, Text.displayOrder_swap]
      exact hround
    · rw [Direction.apply, hlast]
      decide

theorem totalPreorder_iff {documents : List Document} : TotalPreorder ranking documents ↔
    ∀ a ∈ documents, ∀ b ∈ documents, ∀ c ∈ documents, ¬ Torn ranking.field a b c := by
  constructor
  · intro h a ha b hb c hc htorn
    rcases htorn.circle with ⟨hca, hab, hcb⟩ | ⟨hba, hac, hbc⟩
    · exact hcb (h.trans c hc a ha b hb hca hab)
    · exact hbc (h.trans b hb a ha c hc hba hac)
  · intro h
    refine ⟨fun a _ b _ ↦ ?_, fun a ha b hb c hc hab hbc ↦ ?_⟩
    · rw [← compareBy_swap ranking a b]
      cases compareBy ranking a b <;> rfl
    · exact isLE_trans_of_untorn h ha hb hc hab hbc

end Laws

/-- Under every ranking a document is tied with itself, and the other way round two documents
compare the opposite way. Documents are totally ordered up to ties just if no three of them are
torn. -/
theorem compareBy_orders_untorn (ranking : Ranking) :
    (∀ d, compareBy ranking d d = .eq) ∧
      (∀ a b, compareBy ranking b a = (compareBy ranking a b).swap) ∧
      ∀ documents, TotalPreorder ranking documents ↔
        ∀ a ∈ documents, ∀ b ∈ documents, ∀ c ∈ documents, ¬ Torn ranking.field a b c :=
  ⟨compareBy_self ranking, fun a b ↦ (compareBy_swap ranking a b).symm, fun _ ↦ totalPreorder_iff⟩

/-- A document with a tag. -/
def tagged (id : Nat) (tag : String) : Document :=
  ⟨id, .object [("profile", .object [("tag", .string tag)])]⟩

/-- A comma comes after `+5` and before `1`, and five is more than one. -/
theorem not_totalPreorder_of_torn : ¬ ∀ (ranking : Ranking) (a b c : Document),
    compareBy ranking a a = .eq ∧ compareBy ranking b a = (compareBy ranking a b).swap ∧
      (compareBy ranking a b ≠ .gt → compareBy ranking b c ≠ .gt →
        compareBy ranking a c ≠ .gt) := by
  intro h
  have htrans := (h ⟨.profileTag, .ascending⟩ (tagged 1 "+5") (tagged 2 ",") (tagged 3 "1")).2.2
  revert htrans
  decide +kernel

end Document

end ShardSearch
