import Mathlib.Data.List.TakeWhile
import ShardSearch.Json.Tree
import ShardSearch.Json.Writer

/-!
Reading what was written. An indented text is read back in two steps, as it is read at all:
`tokens?_pretty` gives the tokens of a written value, which no blank of the layout is part of, and
`Progress.run_tokens` rebuilds the tree of the value from them. `Tree.parse?_pretty` joins the two.

Every text survives as a string (`leadingToken?_quoted`): the reader sees the code point of a
character for whatever `escapeChar` writes for it, and code points are never halves of a surrogate
pair. A number survives if it is whole and fits 64 bits, signed or not (`leadingToken?_intChars`),
provided that the text does not go on like a number: `Ends` says so of what follows. Beyond 64 bits
a whole number comes back as a double, so `Fits` is asked of every number of a value.
-/

set_option autoImplicit false

namespace ShardSearch.Json

variable {rest : List Char}

/-! ### Strings -/

section Strings

variable {units : List Nat} {width : Nat}

theorem hexValue?_digitChar : ∀ d < 16, hexValue? (Nat.digitChar d) = some d := by decide

theorem hex4?_hexChars {n : Nat} (hn : n < 0x100) :
    hex4? '0' '0' (Nat.digitChar (n / 16)) (Nat.digitChar (n % 16)) = some n := by
  have hzero : hexValue? '0' = some 0 := rfl
  have hhigh := hexValue?_digitChar (n / 16) (by omega)
  have hlow := hexValue?_digitChar (n % 16) (by omega)
  simp only [hex4?, hzero, hhigh, hlow, Option.bind_eq_bind, Option.bind_some, Option.pure_def,
    Option.some.injEq]
  omega

/-- A character is escaped by a letter, by its code point or not at all. -/
theorem escapeChar_cases (c : Char) :
    (∃ letter, escaped? letter = some c ∧ escapeChar c = ['\\', letter]) ∨
      (c.toNat < 0x20 ∧ escapeChar c = '\\' :: 'u' :: '0' :: '0' :: hexChars c.toNat) ∨
      (0x20 ≤ c.toNat ∧ c ≠ '"' ∧ c ≠ '\\' ∧ escapeChar c = [c]) := by
  have byLetter {letter d : Char} (hc : (c == d) = true) (hd : escaped? letter = some d) :
      ∃ e, escaped? e = some c ∧ ['\\', letter] = ['\\', e] :=
    ⟨letter, by rw [eq_of_beq hc, hd], rfl⟩
  unfold escapeChar
  split
  · next hc => exact .inl (byLetter hc rfl)
  next hquote =>
  split
  · next hc => exact .inl (byLetter hc rfl)
  next hslash =>
  split
  · next hc => exact .inl (byLetter hc rfl)
  split
  · next hc => exact .inl (byLetter hc rfl)
  split
  · next hc => exact .inl (byLetter hc rfl)
  split
  · next hc => exact .inl (byLetter hc rfl)
  split
  · next hc => exact .inl (byLetter hc rfl)
  split
  · next hcontrol => exact .inr (.inl ⟨hcontrol, rfl⟩)
  · next hcontrol =>
    exact .inr (.inr ⟨by omega, by simpa using hquote, by simpa using hslash, rfl⟩)

/-- What is written for a character is read as its code point. -/
theorem stringUnits?_escapeChar (c : Char) (hrest : stringUnits? rest = some (units, width)) :
    stringUnits? (escapeChar c ++ rest) =
      some (c.toNat :: units, (escapeChar c).length + width) := by
  obtain ⟨letter, hletter, hc⟩ | ⟨hcontrol, hc⟩ | ⟨hplain, hquote, hslash, hc⟩ :=
    escapeChar_cases c
  · have hu : letter ≠ 'u' := by
      rintro rfl
      simp [escaped?] at hletter
    rw [hc, List.cons_append, List.cons_append, List.nil_append, stringUnits?, hletter, hrest]
    · simp [Nat.add_comm]
    · exact fun _ _ _ _ _ h ↦ absurd h hu
  · have hcode : hex4? '0' '0' _ _ = some c.toNat := hex4?_hexChars (by omega)
    simp [hc, hexChars, stringUnits?, hcode, hrest, Nat.add_comm]
  · have hbare : (decide (c.toNat < 0x20) || c == '\\') = false := by simp [hplain, hslash]
    rw [hc, List.cons_append, List.nil_append, stringUnits?, hbare, hrest]
    · simp [Nat.add_comm]
    · simpa using hquote
    · simp [hslash]
    · simp [hslash]

theorem stringUnits?_escaped (cs rest : List Char) :
    stringUnits? (cs.flatMap escapeChar ++ '"' :: rest) =
      some (cs.map Char.toNat, (cs.flatMap escapeChar).length + 1) := by
  induction cs with
  | nil => simp [stringUnits?]
  | cons c cs ih =>
    rw [List.flatMap_cons, List.append_assoc, stringUnits?_escapeChar c ih, List.map_cons,
      List.length_append, Nat.add_assoc]

theorem not_surrogate (c : Char) :
    isLowSurrogate c.toNat = false ∧ isHighSurrogate c.toNat = false := by
  have hvalid : c.toNat < 0xD800 ∨ 0xDFFF < c.toNat ∧ c.toNat < 0x110000 := c.valid
  simp only [isLowSurrogate, isHighSurrogate, Bool.and_eq_false_iff, decide_eq_false_iff_not]
  omega

theorem ofUnits?_toNat (cs : List Char) : ofUnits? (cs.map Char.toNat) = some cs := by
  induction cs with
  | nil => rfl
  | cons c cs ih =>
    obtain ⟨hlow, hhigh⟩ := not_surrogate c
    rw [List.map_cons, ofUnits?.eq_def]
    simp [hlow, hhigh, ih, Char.ofNat_toNat]

theorem leadingToken?_quoted (s : String) :
    leadingToken? (quoted s ++ rest) = some (.string (some s), (quoted s).length) := by
  have hunits := stringUnits?_escaped s.toList rest
  simp [quoted, leadingToken?, hunits, ofUnits?_toNat]

end Strings

/-! ### Whole numbers -/

/-- A number that is whole and fits 64 bits, signed or not. -/
def Number.Fits : Number → Prop
  | .int n => -Nat.pow 2 63 ≤ n ∧ n < Nat.pow 2 64
  | .float _ => False

/-- A text before which a number ends: it does not go on with a character of one. -/
def Ends (rest : List Char) : Prop := ∀ c ∈ rest.head?, isNumberChar c = false

theorem digitsValue_toDigits (n : Nat) : Decimal.digitsValue (Nat.toDigits 10 n) = n :=
  Nat.ofDigitChars_toDigits (by decide) (by decide)

theorem isDigit_toDigits (n : Nat) : ∀ c ∈ Nat.toDigits 10 n, c.isDigit = true :=
  fun _ hc ↦ Nat.isDigit_of_mem_toDigits (by decide) (by decide) hc

/-- The digits of a number other than zero have no zero in front. -/
theorem toDigits_eq_cons {n : Nat} (hn : 0 < n) :
    ∃ c digits, Nat.toDigits 10 n = c :: digits ∧ c ≠ '0' := by
  induction n using Nat.strongRecOn with
  | ind n ih =>
    rw [Nat.toDigits_eq_if (by decide)]
    split
    · next hlt =>
      have hdigit : ∀ d < 10, 0 < d → Nat.digitChar d ≠ '0' := by decide
      exact ⟨Nat.digitChar n, [], rfl, hdigit n hlt hn⟩
    · next hge =>
      obtain ⟨c, digits, hdigits, hc⟩ := ih (n / 10) (by omega) (by omega)
      exact ⟨c, digits ++ [Nat.digitChar (n % 10)], by rw [hdigits]; rfl, hc⟩

theorem isWholePart_toDigits (n : Nat) : isWholePart (Nat.toDigits 10 n) = true := by
  obtain rfl | hn := Nat.eq_zero_or_pos n
  · rfl
  · obtain ⟨c, digits, hdigits, hc⟩ := toDigits_eq_cons hn
    rw [hdigits, isWholePart]
    · simpa using hc
    · simp [hc]

theorem numberToken?_withSign (negative : Bool) (n : Nat) :
    numberToken? (Decimal.Binary64.withSign negative (Nat.toDigits 10 n)) =
      some (.number (some (.ofWhole negative n))) := by
  have hall := isDigit_toDigits n
  have hwhole : (Nat.toDigits 10 n).takeWhile Char.isDigit = Nat.toDigits 10 n :=
    List.takeWhile_eq_self_iff.mpr hall
  have hrest : (Nat.toDigits 10 n).dropWhile Char.isDigit = [] :=
    List.dropWhile_eq_nil_iff.mpr hall
  have hsign : ((Nat.toDigits 10 n).head? == some '-') = false := by
    cases hdigits : Nat.toDigits 10 n with
    | nil => rfl
    | cons c digits =>
      have hc : c.isDigit = true := hall c (by simp [hdigits])
      have hne : c ≠ '-' := by
        rintro rfl
        exact absurd hc (by decide)
      simp [hne]
  cases negative <;>
    simp [numberToken?, Decimal.Binary64.withSign, hsign, hwhole, hrest, isWholePart_toDigits,
      digitsValue_toDigits]

/-- A whole number that fits 64 bits keeps its value. -/
theorem ofWhole_natAbs {n : Int} (hn : (Number.int n).Fits) :
    Number.ofWhole (decide (n < 0)) n.natAbs = .int n := by
  obtain ⟨hlow, hhigh⟩ : -Nat.pow 2 63 ≤ n ∧ n < Nat.pow 2 64 := hn
  have hsigned : Nat.pow 2 63 = 2 ^ 63 := rfl
  have hunsigned : Nat.pow 2 64 = 2 ^ 64 := rfl
  unfold Number.ofWhole
  by_cases hneg : n < 0
  · have hfits : ¬ (decide (n.natAbs = 0) || decide (Nat.pow 2 63 < n.natAbs)) = true := by
      simp only [Bool.or_eq_true, decide_eq_true_eq]
      omega
    rw [if_pos (decide_eq_true hneg), if_neg hfits, Int.ofNat_natAbs_of_nonpos (Int.le_of_lt hneg),
      Int.neg_neg]
  · have hfits : n.natAbs < Nat.pow 2 64 := by omega
    rw [if_neg (by simpa using hneg), if_pos hfits, Int.natAbs_of_nonneg (Int.not_lt.mp hneg)]

theorem isNumberChar_intChars (n : Int) : ∀ c ∈ intChars n, isNumberChar c = true := by
  have hdigits : ∀ c ∈ Nat.toDigits 10 n.natAbs, isNumberChar c = true := fun c hc ↦ by
    simp [isNumberChar, isDigit_toDigits _ c hc]
  unfold intChars Decimal.Binary64.withSign
  split
  · exact List.forall_mem_cons.mpr ⟨by decide, hdigits⟩
  · exact hdigits

theorem intChars_ne_nil (n : Int) : intChars n ≠ [] := by
  unfold intChars Decimal.Binary64.withSign
  split
  · simp
  · exact Nat.toDigits_ne_nil

/-- A text that begins like a number has a number at its head or no token at all. -/
theorem leadingToken?_of_isNumberChar {c : Char} (hc : isNumberChar c = true) :
    leadingToken? (c :: rest) =
      (numberToken? ((c :: rest).takeWhile isNumberChar)).map fun token ↦
        (token, ((c :: rest).takeWhile isNumberChar).length) := by
  unfold leadingToken?
  split <;> first | rfl | simp_all [isNumberChar]

theorem takeWhile_append_of_ends {cs : List Char} (hcs : ∀ c ∈ cs, isNumberChar c = true)
    (hrest : Ends rest) : (cs ++ rest).takeWhile isNumberChar = cs := by
  have hnone : rest.takeWhile isNumberChar = [] := by
    cases rest with
    | nil => rfl
    | cons c rest => exact List.takeWhile_cons_of_neg (by simp [hrest c rfl])
  rw [List.takeWhile_append_of_pos hcs, hnone, List.append_nil]

theorem leadingToken?_intChars {n : Int} (hn : (Number.int n).Fits) (hrest : Ends rest) :
    leadingToken? (intChars n ++ rest) = some (.number (some (.int n)), (intChars n).length) := by
  have hchars := isNumberChar_intChars n
  have hlexeme := takeWhile_append_of_ends hchars hrest
  have hvalue : numberToken? (intChars n) = some (.number (some (.int n))) := by
    rw [intChars, numberToken?_withSign, ofWhole_natAbs hn]
  cases htext : intChars n with
  | nil => exact absurd htext (intChars_ne_nil n)
  | cons c cs =>
    rw [htext] at hlexeme hvalue hchars
    rw [List.cons_append] at hlexeme
    rw [List.cons_append, leadingToken?_of_isNumberChar (hchars c (by simp)), hlexeme, hvalue]
    rfl

/-! ### Tokens -/

section Tokens

variable {token : Token} {later : List Token}

theorem leadingToken?_blank {c : Char} (hc : isJsonBlank c = true) :
    leadingToken? (c :: rest) = none := by
  simp only [isJsonBlank, Bool.or_eq_true, beq_iff_eq] at hc
  obtain ((rfl | rfl) | rfl) | rfl := hc <;> rfl

theorem tokens?_blank {c : Char} (hc : isJsonBlank c = true) :
    tokens? (c :: rest) = tokens? rest := by
  simp [tokens?, tokensFrom, hc]

/-- The token of a text that stands in front of others. -/
theorem tokens?_append {text : List Char} (hne : text ≠ [])
    (htoken : leadingToken? (text ++ rest) = some (token, text.length))
    (hrest : tokens? rest = some later) : tokens? (text ++ rest) = some (token :: later) := by
  cases text with
  | nil => exact absurd rfl hne
  | cons c text =>
    have hblank : isJsonBlank c = false := by
      by_contra hc
      rw [List.cons_append, leadingToken?_blank (by simpa using hc)] at htoken
      cases htoken
    have hskip : tokensFrom text.length (text ++ rest) = some later := by
      rw [tokensFrom_skip, List.drop_left, hrest]
    rw [List.cons_append] at htoken ⊢
    simp [tokens?, tokensFrom, hblank, htoken, hskip]

/-- The token of a single character. -/
theorem tokens?_cons {c : Char} (htoken : leadingToken? (c :: rest) = some (token, 1))
    (hrest : tokens? rest = some later) : tokens? (c :: rest) = some (token :: later) :=
  tokens?_append (List.cons_ne_nil c []) htoken hrest

theorem tokens?_newLine (indent : Nat) (rest : List Char) :
    tokens? (newLine indent ++ rest) = tokens? rest := by
  have hspaces : tokens? (List.replicate indent ' ' ++ rest) = tokens? rest := by
    induction indent with
    | zero => rfl
    | succ indent ih => rw [List.replicate_succ, List.cons_append, tokens?_blank rfl, ih]
  rw [newLine, List.cons_append, tokens?_blank rfl, hspaces]

/-- The token of a single character on a line of its own. -/
theorem tokens?_lastLine (indent : Nat) {c : Char}
    (htoken : leadingToken? (c :: rest) = some (token, 1)) (hrest : tokens? rest = some later) :
    tokens? (newLine indent ++ c :: rest) = some (token :: later) := by
  rw [tokens?_newLine]
  exact tokens?_cons htoken hrest

theorem tokens?_quoted (s : String) (hrest : tokens? rest = some later) :
    tokens? (quoted s ++ rest) = some (.string (some s) :: later) :=
  tokens?_append (List.cons_ne_nil _ _) (leadingToken?_quoted s) hrest

theorem tokens?_key (key : String) (hrest : tokens? rest = some later) :
    tokens? (quoted key ++ ':' :: ' ' :: rest) = some (.string (some key) :: .colon :: later) :=
  tokens?_quoted key (tokens?_cons rfl (by rwa [tokens?_blank rfl]))

theorem Ends.cons {c : Char} (hc : isNumberChar c = false) : Ends (c :: rest) := by
  intro d hd
  obtain rfl : c = d := by simpa using hd
  exact hc

theorem Ends.newLine (indent : Nat) (rest : List Char) : Ends (Json.newLine indent ++ rest) :=
  Ends.cons rfl

end Tokens

mutual

/-- Every number in a value is whole and fits 64 bits. -/
def Fits : Json → Prop
  | null | bool _ | string _ => True
  | number n => n.Fits
  | array items => ItemsFit items
  | object entries => EntriesFit entries

def ItemsFit : List Json → Prop
  | [] => True
  | item :: rest => Fits item ∧ ItemsFit rest

def EntriesFit : List (String × Json) → Prop
  | [] => True
  | (_, item) :: rest => Fits item ∧ EntriesFit rest

end

mutual

/-- The tokens that a value is written with. -/
def tokens : Json → List Token
  | null => [.null]
  | bool b => [.bool b]
  | number n => [.number (some n)]
  | string s => [.string (some s)]
  | array items => .openArray :: itemTokens items ++ [.closeArray]
  | object entries => .openObject :: entryTokens entries ++ [.closeObject]

def itemTokens : List Json → List Token
  | [] => []
  | [item] => tokens item
  | item :: rest => tokens item ++ .comma :: itemTokens rest

def entryTokens : List (String × Json) → List Token
  | [] => []
  | [(key, item)] => .string (some key) :: .colon :: tokens item
  | (key, item) :: rest =>
    .string (some key) :: .colon :: tokens item ++ .comma :: entryTokens rest

end

mutual

/-- A value that is written with indentation has its tokens, and then come those of the rest. -/
theorem tokens?_prettyChars (indent : Nat) (j : Json) (rest : List Char) (later : List Token)
    (hj : j.Fits) (hends : Ends rest) (hrest : tokens? rest = some later) :
    tokens? (prettyChars indent j ++ rest) = some (j.tokens ++ later) := by
  match j with
  | null => exact tokens?_append (by simp [prettyChars]) rfl hrest
  | bool true => exact tokens?_append (by simp [prettyChars]) rfl hrest
  | bool false => exact tokens?_append (by simp [prettyChars]) rfl hrest
  | number (.int n) =>
    exact tokens?_append (intChars_ne_nil n) (leadingToken?_intChars hj hends) hrest
  | number (.float x) => exact absurd hj id
  | string s => exact tokens?_quoted s hrest
  | array [] => exact tokens?_cons rfl (tokens?_cons rfl hrest)
  | array (item :: items) =>
    have hclose : tokens? (newLine indent ++ ']' :: rest) = some (.closeArray :: later) :=
      tokens?_lastLine indent rfl hrest
    have hitems := tokens?_prettyItems (indent + 2) (item :: items) _ _ hj (.newLine indent _)
      hclose
    simpa [prettyChars, tokens] using tokens?_cons rfl hitems
  | object [] => exact tokens?_cons rfl (tokens?_cons rfl hrest)
  | object (entry :: entries) =>
    have hclose : tokens? (newLine indent ++ '\x7d' :: rest) = some (.closeObject :: later) :=
      tokens?_lastLine indent rfl hrest
    have hentries := tokens?_prettyEntries (indent + 2) (entry :: entries) _ _ hj
      (.newLine indent _) hclose
    simpa [prettyChars, tokens] using tokens?_cons rfl hentries

theorem tokens?_prettyItems (indent : Nat) (items : List Json) (rest : List Char)
    (later : List Token) (hitems : ItemsFit items) (hends : Ends rest)
    (hrest : tokens? rest = some later) :
    tokens? (prettyItems indent items ++ rest) = some (itemTokens items ++ later) := by
  match items with
  | [] => exact hrest
  | [item] =>
    rw [prettyItems, List.append_assoc, tokens?_newLine]
    exact tokens?_prettyChars indent item rest later hitems.1 hends hrest
  | item :: next :: items =>
    have hnext := tokens?_prettyItems indent (next :: items) rest later hitems.2 hends hrest
    have hcomma : tokens? (',' :: (prettyItems indent (next :: items) ++ rest)) =
        some (.comma :: (itemTokens (next :: items) ++ later)) := tokens?_cons rfl hnext
    have hitem := tokens?_prettyChars indent item _ _ hitems.1 (.cons rfl) hcomma
    simpa [prettyItems, itemTokens, tokens?_newLine] using hitem

theorem tokens?_prettyEntries (indent : Nat) (entries : List (String × Json)) (rest : List Char)
    (later : List Token) (hentries : EntriesFit entries) (hends : Ends rest)
    (hrest : tokens? rest = some later) :
    tokens? (prettyEntries indent entries ++ rest) = some (entryTokens entries ++ later) := by
  match entries with
  | [] => exact hrest
  | [(key, item)] =>
    have hitem := tokens?_prettyChars indent item rest later hentries.1 hends hrest
    simpa [prettyEntries, entryTokens, tokens?_newLine] using tokens?_key key hitem
  | (key, item) :: next :: entries =>
    have hnext := tokens?_prettyEntries indent (next :: entries) rest later hentries.2 hends hrest
    have hcomma : tokens? (',' :: (prettyEntries indent (next :: entries) ++ rest)) =
        some (.comma :: (entryTokens (next :: entries) ++ later)) := tokens?_cons rfl hnext
    have hitem := tokens?_prettyChars indent item _ _ hentries.1 (.cons rfl) hcomma
    simpa [prettyEntries, entryTokens, tokens?_newLine] using tokens?_key key hitem

end

theorem tokens?_pretty {j : Json} (hj : j.Fits) : tokens? j.pretty.toList = some j.tokens := by
  have hchars := tokens?_prettyChars 0 j [] [] hj (by simp [Ends]) rfl
  simpa [pretty] using hchars

/-! ### Trees -/

namespace Tree

open Progress

variable {frames : List Frame}

theorem Progress.run_cons {p next : Progress} {token : Token} (hstep : p.step token = some next)
    (later : List Token) : p.run (token :: later) = next.run later := by
  simp [run, hstep]

/-- A value at the head of an array, where its end might stand as well. -/
theorem Progress.run_firstItem (item : Json) (items : List Json) (later : List Token) :
    (valueOrClose frames).run (itemTokens (item :: items) ++ later) =
      (value (.array [] :: frames)).run (itemTokens (item :: items) ++ later) := by
  cases items <;> cases item <;> rfl

mutual

/-- A machine that is to read a value and finds its tokens has its tree. -/
theorem Progress.run_tokens (j : Json) (frames : List Frame) (later : List Token) :
    (value frames).run (j.tokens ++ later) = (afterValue frames (ofJson j)).run later := by
  match j with
  | .null => rfl
  | .bool b => rfl
  | .number n => rfl
  | .string s => rfl
  | .array [] => rfl
  | .array (item :: items) =>
    have hopen : (value frames).step .openArray = some (valueOrClose frames) := rfl
    rw [tokens, List.append_assoc, List.cons_append, run_cons hopen, run_firstItem]
    exact run_itemTokens (item :: items) (List.cons_ne_nil _ _) [] frames later
  | .object [] => rfl
  | .object (entry :: entries) =>
    have hopen : (value frames).step .openObject = some (keyOrClose frames) := rfl
    rw [tokens, List.append_assoc, List.cons_append, run_cons hopen]
    exact run_entryTokens (entry :: entries) (List.cons_ne_nil _ _) [] frames
      (keyOrClose frames) (fun _ ↦ rfl) later

theorem Progress.run_itemTokens (items : List Json) (hne : items ≠ []) (done : List Tree)
    (frames : List Frame) (later : List Token) :
    (value (.array done :: frames)).run (itemTokens items ++ .closeArray :: later) =
      (afterValue frames (array (done.reverse ++ ofItems items))).run later := by
  match items with
  | [] => exact absurd rfl hne
  | [item] =>
    have hclose : (afterValue (.array done :: frames) (ofJson item)).step .closeArray =
        some (afterValue frames (array (ofJson item :: done).reverse)) := rfl
    rw [itemTokens, run_tokens item, run_cons hclose, List.reverse_cons]
    rfl
  | item :: next :: items =>
    have hcomma : (afterValue (.array done :: frames) (ofJson item)).step .comma =
        some (value (.array (ofJson item :: done) :: frames)) := rfl
    have hnext := run_itemTokens (next :: items) (List.cons_ne_nil _ _) (ofJson item :: done)
      frames later
    have hlayout : itemTokens (item :: next :: items) ++ .closeArray :: later =
        item.tokens ++ .comma :: (itemTokens (next :: items) ++ .closeArray :: later) := by
      simp [itemTokens]
    rw [hlayout, run_tokens item, run_cons hcomma, hnext, List.reverse_cons, List.append_assoc]
    rfl

/-- Entries are read alike at the head of an object and after others: `p` is where a key is due. -/
theorem Progress.run_entryTokens (entries : List (String × Json)) (hne : entries ≠ [])
    (done : List (Option String × Tree)) (frames : List Frame) (p : Progress)
    (hp : ∀ key, p.step (.string key) = some (.colon frames done key)) (later : List Token) :
    p.run (entryTokens entries ++ .closeObject :: later) =
      (afterValue frames (object (done.reverse ++ ofEntries entries))).run later := by
  have hcolon (key : String) : (Progress.colon frames done (some key)).step .colon =
      some (value (.object done (some key) :: frames)) := rfl
  match entries with
  | [] => exact absurd rfl hne
  | [(key, item)] =>
    have hclose : (afterValue (.object done (some key) :: frames) (ofJson item)).step .closeObject =
        some (afterValue frames (object ((some key, ofJson item) :: done).reverse)) := rfl
    rw [entryTokens, List.cons_append, run_cons (hp (some key)), List.cons_append,
      run_cons (hcolon key), run_tokens item, run_cons hclose, List.reverse_cons]
    rfl
  | (key, item) :: next :: entries =>
    have hcomma : (afterValue (.object done (some key) :: frames) (ofJson item)).step .comma =
        some (nextKey frames ((some key, ofJson item) :: done)) := rfl
    have hnext := run_entryTokens (next :: entries) (List.cons_ne_nil _ _)
      ((some key, ofJson item) :: done) frames (nextKey frames ((some key, ofJson item) :: done))
      (fun _ ↦ rfl) later
    have hlayout : entryTokens ((key, item) :: next :: entries) ++ .closeObject :: later =
        .string (some key) :: .colon :: (item.tokens ++
          .comma :: (entryTokens (next :: entries) ++ .closeObject :: later)) := by
      simp [entryTokens]
    rw [hlayout, run_cons (hp (some key)), run_cons (hcolon key), run_tokens item,
      run_cons hcomma, hnext, List.reverse_cons, List.append_assoc]
    rfl

end

theorem ofTokens?_tokens (j : Json) : ofTokens? j.tokens = some (ofJson j) := by
  have hrun := run_tokens j [] []
  rw [List.append_nil] at hrun
  rw [ofTokens?, hrun]
  rfl

/-- A text that was written with indentation is read as the tree of its value. -/
theorem parse?_pretty {j : Json} (hj : j.Fits) : parse? j.pretty = some (ofJson j) := by
  rw [parse?, tokens?_pretty hj, Option.bind_some, ofTokens?_tokens]

end Tree

end ShardSearch.Json
