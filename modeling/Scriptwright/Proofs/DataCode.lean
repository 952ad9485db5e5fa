import Scriptwright.Proofs.Initializers
import Scriptwright.Proofs.RuleReach

/-!
# What data looks like in code

The code of a script shows a string as its quotes with blanks between them.  What
is left of a value is written with few characters (`Alphabet.data`): digits, signs
and marks, and the letters of `null`, `true`, `false`, `NaN` and `Infinity`.  Two
points never stand side by side in it, nor does an `e` before a `t`.

`ShownAs` says what code a text is shown as, wherever in code it is read.  **The
literal of a value, however deep, is shown as data** (`Scan.shownAsData_render`), and so is
what stands behind the opening parenthesis of a regular expression
(`Scan.shownAsData_regexArguments`).  Where a map begins, no bare name follows the brace
(`RefusesShorthand`).
-/

namespace Scriptwright

/-! ## Alphabets -/

namespace Alphabet

/-- What names are written with, and the blanks between them. -/
def name : Alphabet where
  letters := "abcdefghijklmnopqrstuvwxyzABCDEFGHIJKLMNOPQRSTUVWXYZ0123456789_$ ".toList
  follows := fun _ _ => true

/-- What names and their members are written with. -/
def member : Alphabet where
  letters := '.' :: name.letters
  follows := fun c d => !(c == '.' && d == '.')

/-- What data is written with, apart from the texts in it. -/
def data : Alphabet where
  letters := "0123456789.-+ \"[]{},:)nultrefasNIiy".toList
  follows := fun c d => !(c == '.' && d == '.') && !(c == 'e' && d == 't')

variable {a : Alphabet} {t u : Text}

/-- The empty text belongs to every alphabet. -/
theorem spells_nil : a.Spells [] := ⟨fun _ hc => absurd hc List.not_mem_nil, .nil⟩

/-- Texts side by side. -/
theorem Spells.append (ht : a.Spells t) (hu : a.Spells u)
    (h : ∀ c ∈ t.getLast?, ∀ d ∈ u.head?, a.follows c d = true) : a.Spells (t ++ u) where
  letters := by
    intro c hc
    rcases List.mem_append.1 hc with hc | hc
    · exact ht.letters c hc
    · exact hu.letters c hc
  follows := ht.follows.append hu.follows h

/-- A character that may stand before every other. -/
theorem Spells.cons {c : Char} (ht : a.Spells t) (hc : c ∈ a.letters)
    (h : ∀ d, a.follows c d = true) : a.Spells (c :: t) := by
  have hone : a.Spells [c] := ⟨fun d hd => by rwa [List.mem_singleton.1 hd], .singleton c⟩
  refine hone.append ht fun d hd e _ => ?_
  obtain rfl : c = d := by simpa using hd
  exact h e

/-- Characters that may stand behind every other. -/
theorem spells_of_forall (h : ∀ c ∈ t, c ∈ a.letters ∧ ∀ d, a.follows d c = true) : a.Spells t where
  letters := fun c hc => (h c hc).1
  follows := by
    induction t with
    | nil => exact .nil
    | cons c t ih =>
        have hrest := ih fun d hd => h d (List.mem_cons_of_mem _ hd)
        cases t with
        | nil => exact .singleton c
        | cons d t => exact .cons_cons ((h d (by simp)).2 c) hrest

/-- Characters of names are plain letters. -/
theorem toNat_lt_of_extendsName {c : Char} (h : extendsName c = true) : c.toNat < 128 := by
  have hcodes : (decide (65 ≤ c.val ∧ c.val ≤ 90) ||
      (decide (97 ≤ c.val) && decide (c.val ≤ 122)) ||
        (decide (48 ≤ c.val) && decide (c.val ≤ 57)) || c == '_' || c == '$') = true := h
  simp only [Bool.or_eq_true, Bool.and_eq_true, decide_eq_true_eq, beq_iff_eq,
    UInt32.le_iff_toNat_le] at hcodes
  rcases hcodes with (((h | h) | h) | rfl) | rfl
  · exact lt_of_le_of_lt h.2 (by decide)
  · exact lt_of_le_of_lt h.2 (by decide)
  · exact lt_of_le_of_lt h.2 (by decide)
  · decide
  · decide

/-- What holds of the plain letters that belong to names holds of every character of a name. -/
theorem of_extendsName {P : Char → Prop}
    (hcodes : ∀ n < 128, extendsName (Char.ofNat n) = true → P (Char.ofNat n)) {c : Char}
    (h : extendsName c = true) : P c := by
  have hc := hcodes c.toNat (toNat_lt_of_extendsName h)
  rw [Char.ofNat_toNat] at hc
  exact hc h

/-- Every character of a name is among the letters of names. -/
theorem mem_nameLetters {c : Char} (h : extendsName c = true) : c ∈ name.letters := by
  have hcodes : ∀ n < 128, extendsName (Char.ofNat n) = true → Char.ofNat n ∈ name.letters := by
    decide +kernel
  exact of_extendsName (P := fun c => c ∈ name.letters) hcodes h

/-- The characters of an identifier. -/
theorem extendsName_of_isIdentifier {name : Text} (h : isIdentifier name = true) :
    ∀ c ∈ name, extendsName c = true := by
  cases name with
  | nil => cases h
  | cons c rest =>
      rw [isIdentifier, Bool.and_eq_true, List.all_eq_true] at h
      have hopens : extendsName c = true := by
        have hopens := h.1
        simp only [opensName, extendsName, Char.isAlphanum, Bool.or_eq_true] at hopens ⊢
        tauto
      intro d hd
      rcases List.mem_cons.1 hd with rfl | hd
      · exact hopens
      · exact h.2 d hd

/-! ### Numbers -/

/-- Of the letters of data, no two points stand side by side, and no `t` stands behind an `e`. -/
theorem follows_data (c d : Char) :
    data.follows c d = (!(c == '.' && d == '.') && !(c == 'e' && d == 't')) := rfl

/-- A text of digits. -/
def Digits (t : Text) : Prop := ∀ c ∈ t, c.isDigit = true

/-- The digits of a number are digits. -/
theorem digits_ofNat (n : Nat) : Digits (Text.ofNat n) :=
  fun _ hc => Text.isDigit_of_mem_ofNat hc

/-- So are the zeros that fill it up. -/
theorem digits_replicate_zero (n : Nat) : Digits (List.replicate n '0') := by
  intro c hc
  rw [List.eq_of_mem_replicate hc]
  rfl

/-- Digits behind digits are digits. -/
theorem Digits.append (ht : Digits t) (hu : Digits u) : Digits (t ++ u) :=
  List.forall_mem_append.2 ⟨ht, hu⟩

/-- Digits may stand side by side in data. -/
theorem Digits.spells (h : Digits t) : data.Spells t := by
  have hcodes : ∀ n < 128, extendsName (Char.ofNat n) = true → (Char.ofNat n).isDigit = true →
      Char.ofNat n ∈ data.letters ∧ Char.ofNat n ≠ '.' ∧ Char.ofNat n ≠ 't' := by decide +kernel
  refine spells_of_forall fun c hc => ?_
  have hdigit := h c hc
  have hname : extendsName c = true := by simp [extendsName, Char.isAlphanum, hdigit]
  obtain ⟨hletter, hpoint, ht⟩ := of_extendsName
    (P := fun c => c.isDigit = true → c ∈ data.letters ∧ c ≠ '.' ∧ c ≠ 't') hcodes hname hdigit
  exact ⟨hletter, fun d => by simp [follows_data, hpoint, ht]⟩

/-- Digits on both sides of a point. -/
theorem Digits.spells_point (ht : Digits t) (hu : Digits u) : data.Spells (t ++ '.' :: u) := by
  have hne {c : Char} (hc : c.isDigit = true) : c ≠ '.' := by rintro rfl; cases hc
  have hpoint : data.Spells ['.'] := by decide
  have hbehind : data.Spells ('.' :: u) := by
    refine hpoint.append hu.spells fun c hc d hd => ?_
    obtain rfl : '.' = c := by simpa using hc
    simp [follows_data, hne (hu d (List.mem_of_mem_head? hd))]
  refine ht.spells.append hbehind fun c hc d hd => ?_
  obtain rfl : '.' = d := by simpa using hd
  simp [follows_data, hne (ht c (List.mem_of_mem_getLast? hc))]

/-- Written out with its point, a decimal belongs to the alphabet of data. -/
theorem spells_positional (d : Decimal) : data.Spells d.positional := by
  have hdigits : Digits d.text := digits_ofNat d.digits
  have hzero : Digits ['0'] := digits_replicate_zero 1
  unfold Decimal.positional
  dsimp only
  split_ifs
  · exact (hdigits.append (digits_replicate_zero _)).spells
  · exact Digits.spells_point (fun c hc => hdigits c (List.mem_of_mem_take hc))
      fun c hc => hdigits c (List.mem_of_mem_drop hc)
  · exact hzero.spells_point ((digits_replicate_zero _).append hdigits)

/-- Written with an exponent it does, too. -/
theorem spells_scientific (d : Decimal) : data.Spells d.scientific := by
  have hdigits : Digits d.text := digits_ofNat d.digits
  have hpower (sign : Char) (hsign : sign ∈ ['-', '+']) (n : Nat) :
      data.Spells ('e' :: sign :: Text.ofNat n) := by
    have hfront : data.Spells ['e', sign] := by
      simp only [List.mem_cons, List.not_mem_nil, or_false] at hsign
      rcases hsign with rfl | rfl <;> decide
    refine hfront.append (digits_ofNat n).spells fun c hc d hd => ?_
    obtain rfl : sign = c := by simpa using hc
    simp only [List.mem_cons, List.not_mem_nil, or_false] at hsign
    rcases hsign with rfl | rfl <;> simp [follows_data]
  unfold Decimal.scientific
  dsimp only
  refine Spells.append ?_ (hpower _ (by split <;> decide) _) fun c _ e he => ?_
  · split_ifs
    · exact hdigits.spells
    · exact Digits.spells_point (fun c hc => hdigits c (List.mem_of_mem_take hc))
        fun c hc => hdigits c (List.mem_of_mem_drop hc)
  · obtain rfl : 'e' = e := by simpa using he
    simp [follows_data]

/-- **The text of a number** is spelled with data letters. -/
theorem spells_format (x : Binary64) : data.Spells x.format := by
  have hminus {t : Text} (ht : data.Spells t) : data.Spells ('-' :: t) :=
    ht.cons (by decide) fun d => by simp [follows_data]
  unfold Binary64.format
  split_ifs
  · decide
  · decide
  · decide
  · decide
  · exact hminus (spells_positional _)
  · exact spells_positional _
  · exact hminus (spells_scientific _)
  · exact spells_scientific _

/-- So do the words for truth values. -/
theorem spells_renderBool (b : Bool) : data.Spells (Literal.renderBool b) := by
  cases b <;> decide

end Alphabet

namespace Scan

open Literal (Sealed)

/-! ## What a text is shown as -/

/-- A run from `s` to `t`, both in code, that emitted `shown` and recorded no literals but strings
between double quotes. -/
structure Shown (shown : Text) (s t : State) : Prop where
  region : t.region = .code
  code : t.codeReversed = shown.reverse ++ s.codeReversed
  found : ∃ strings, t.found = strings ++ s.found ∧ ∀ l ∈ strings, l.kind = .double

/-- What is shown of two texts is shown of both together. -/
theorem Shown.trans {u v : Text} {s s' s'' : State} (h : Shown u s s') (h' : Shown v s' s'') :
    Shown (u ++ v) s s'' := by
  obtain ⟨strings, hfound, hkind⟩ := h.found
  obtain ⟨more, hmore, hkind'⟩ := h'.found
  refine ⟨h'.region, by rw [h'.code, h.code]; simp, more ++ strings, ?_, ?_⟩
  · rw [hmore, hfound, List.append_assoc]
  · intro l hl
    rcases List.mem_append.1 hl with hl | hl
    · exact hkind' l hl
    · exact hkind l hl

/-- A script that is shown from its start has that code, and its literals are strings. -/
theorem Shown.strip {script shown : Text} (h : Shown shown State.start (scan script)) :
    (strip script).code = shown ∧ ∀ l ∈ (strip script).literals, l.kind = .double := by
  obtain ⟨strings, hfound, hkind⟩ := h.found
  refine ⟨?_, fun l hl => hkind l ?_⟩
  · rw [Scriptwright.strip, h.code]
    simp [State.start]
  · rw [Scriptwright.strip, State.literals, h.region] at hl
    rw [← List.append_nil strings]
    exact hfound ▸ List.mem_reverse.1 hl

/-- The code that a text is shown as, wherever in code it is read. -/
def ShownAs (t shown : Text) : Prop :=
  ∀ (s : State) (next : Option Char), s.region = .code → Shown shown s (s.readBefore next t)

/-- The same, whatever was scanned before. -/
theorem ShownAs.append {t u shown shown' : Text} (ht : ShownAs t shown) (hu : ShownAs u shown') :
    ShownAs (t ++ u) (shown ++ shown') := by
  intro s next hs
  rw [State.readBefore_append]
  have hfirst := ht s (u.head?.or next) hs
  exact hfirst.trans (hu _ next hfirst.region)

/-- Plain text is shown as it stands. -/
theorem shownAs_plain {t : Text} (h : t.all isPlain = true) : ShownAs t t := by
  intro s next hs
  rw [State.readBefore_plain h s hs]
  exact ⟨rfl, rfl, [], rfl, fun _ hl => absurd hl List.not_mem_nil⟩

/-- All of an inert text is shown. -/
theorem shownAs_inert {t : Text} (h : Inert t) : ShownAs t t :=
  shownAs_plain (all_isPlain_of_inert h)

/-- The code of a string: its quotes with blanks between them. -/
def shownString (n : Nat) : Text := '"' :: (List.replicate n ' ' ++ ['"'])

/-- Of a string, its quotes are shown and blanks in between, one for each character. -/
theorem shownAs_quoted {content : Text} (h : Sealed content) :
    ShownAs ('"' :: content ++ ['"']) (shownString content.length) := by
  intro s next hs
  rw [State.readBefore_quoted h s hs]
  refine ⟨rfl, by simp [shownString], [_], rfl, fun l hl => ?_⟩
  rw [List.mem_singleton.1 hl]

/-- Of the literal of a text, a string of blanks is shown. -/
theorem shownAs_quote (t : Text) : ∃ n, ShownAs (Literal.quote t) (shownString n) :=
  ⟨_, shownAs_quoted (Literal.sealed_escape t)⟩

/-- Quotes with blanks in between belong to the alphabet of data. -/
theorem spells_shownString (n : Nat) : Alphabet.data.Spells (shownString n) := by
  refine Alphabet.spells_of_forall fun c hc => ?_
  have hmem : c = '"' ∨ c = ' ' := by
    simp only [shownString, List.mem_cons, List.mem_append, List.not_mem_nil, or_false] at hc
    rcases hc with hc | hc | hc
    · exact .inl hc
    · exact .inr (List.eq_of_mem_replicate hc)
    · exact .inl hc
  rcases hmem with rfl | rfl <;> exact ⟨by decide, fun d => by simp [Alphabet.follows_data]⟩

/-- A text that is shown as data. -/
structure ShownAsData (t shown : Text) : Prop where
  shownAs : ShownAs t shown
  spells : Alphabet.data.Spells shown

/-- An inert text of the alphabet shows data. -/
theorem shownAsData_inert {t : Text} (h : Inert t) (ht : Alphabet.data.Spells t) :
    ShownAsData t t :=
  ⟨shownAs_inert h, ht⟩

/-- Marks that may stand on either side of everything. -/
def dataMarks : List Char := [',', ' ', '[', ']', '{', '}', ':', ')']

/-- The marks of data may stand next to any letter. -/
theorem mem_dataMarks {c : Char} (h : c ∈ dataMarks) :
    c ∈ Alphabet.data.letters ∧ ∀ d, Alphabet.data.follows d c = true ∧
      Alphabet.data.follows c d = true := by
  simp only [dataMarks, List.mem_cons, List.not_mem_nil, or_false] at h
  rcases h with rfl | rfl | rfl | rfl | rfl | rfl | rfl | rfl <;>
    exact ⟨by decide, fun d => by simp [Alphabet.follows_data]⟩

/-- Data between such marks. -/
theorem ShownAsData.between {t shown : Text} (h : ShownAsData t shown) {front behind : Text}
    (hfront : ∀ c ∈ front, c ∈ dataMarks) (hbehind : ∀ c ∈ behind, c ∈ dataMarks) :
    ShownAsData (front ++ t ++ behind) (front ++ shown ++ behind) := by
  have hplain {u : Text} (hu : ∀ c ∈ u, c ∈ dataMarks) : u.all isPlain = true := by
    have hmarks : ∀ c ∈ dataMarks, isPlain c = true := by decide
    exact List.all_eq_true.2 fun c hc => hmarks c (hu c hc)
  have hspells {u : Text} (hu : ∀ c ∈ u, c ∈ dataMarks) : Alphabet.data.Spells u :=
    Alphabet.spells_of_forall fun c hc =>
      ⟨(mem_dataMarks (hu c hc)).1, fun d => ((mem_dataMarks (hu c hc)).2 d).1⟩
  have hopen := shownAs_plain (hplain hfront)
  have hclose := shownAs_plain (hplain hbehind)
  refine ⟨(hopen.append h.shownAs).append hclose,
    ((hspells hfront).append h.spells ?_).append (hspells hbehind) ?_⟩
  · exact fun c hc d _ => ((mem_dataMarks (hfront c (List.mem_of_mem_getLast? hc))).2 d).2
  · exact fun c _ d hd => ((mem_dataMarks (hbehind d (List.mem_of_mem_head? hd))).2 c).1

/-- Data in front of data, with such marks between them. -/
theorem ShownAsData.append {t u shown shown' separator : Text} (ht : ShownAsData t shown)
    (hu : ShownAsData u shown') (hne : separator ≠ [])
    (hseparator : ∀ c ∈ separator, c ∈ dataMarks) :
    ShownAsData (t ++ separator ++ u) (shown ++ separator ++ shown') := by
  have hfirst : ShownAsData ([] ++ t ++ separator) ([] ++ shown ++ separator) :=
    ht.between (fun c hc => absurd hc List.not_mem_nil) hseparator
  rw [List.nil_append, List.nil_append] at hfirst
  refine ⟨hfirst.shownAs.append hu.shownAs, hfirst.spells.append hu.spells fun c hc d _ => ?_⟩
  rw [List.getLast?_append_of_ne_nil _ hne] at hc
  exact ((mem_dataMarks (hseparator c (List.mem_of_mem_getLast? hc))).2 d).2

/-- Items with such marks between them. -/
theorem shownAsData_join {first shown : Text} (hfirst : ShownAsData first shown) {more : List Text}
    (hmore : ∀ t ∈ more, ∃ u, ShownAsData t u) :
    ∃ behind, ShownAsData (Text.join [',', ' '] (first :: more)) (shown ++ behind) := by
  induction more generalizing first shown with
  | nil => exact ⟨[], by rwa [List.append_nil]⟩
  | cons next more ih =>
      obtain ⟨u, hu⟩ := hmore next List.mem_cons_self
      obtain ⟨behind, hjoin⟩ := ih hu fun t ht => hmore t (List.mem_cons_of_mem _ ht)
      have hboth : ShownAsData (first ++ [',', ' '] ++ Text.join [',', ' '] (next :: more))
          (shown ++ [',', ' '] ++ (u ++ behind)) := hfirst.append hjoin (by simp) (by decide)
      rw [List.append_assoc shown] at hboth
      exact ⟨_, hboth⟩

/-- A list shows data if its items do, and begins with its bracket. -/
theorem shownAsData_brackets {items : List Text} (h : ∀ t ∈ items, ∃ u, ShownAsData t u) :
    ∃ behind, ShownAsData (Literal.brackets items) ('[' :: behind) := by
  have hempty : ShownAsData [] [] := ⟨shownAs_plain rfl, Alphabet.spells_nil⟩
  obtain ⟨joined, hjoined⟩ : ∃ joined, ShownAsData (Text.join [',', ' '] items) joined := by
    cases items with
    | nil => exact ⟨[], hempty⟩
    | cons first more =>
        obtain ⟨u, hu⟩ := h first List.mem_cons_self
        obtain ⟨behind, hjoin⟩ := shownAsData_join hu fun t ht => h t (List.mem_cons_of_mem _ ht)
        exact ⟨_, hjoin⟩
  have hopen : ∀ c ∈ ['['], c ∈ dataMarks := by decide
  have hclose : ∀ c ∈ [']'], c ∈ dataMarks := by decide
  have hbetween : ShownAsData (Literal.brackets items) (['['] ++ joined ++ [']']) :=
    hjoined.between hopen hclose
  exact ⟨joined ++ [']'], hbetween⟩

/-- Behind the brace of a map comes the other brace, or a blank and a quote. -/
theorem shownAsData_braces {entries : List Text}
    (h : ∀ t ∈ entries, ∃ behind, ShownAsData t ('"' :: behind)) :
    ShownAsData (Literal.braces entries) ['{', '}'] ∨
      ∃ behind, ShownAsData (Literal.braces entries) ('{' :: ' ' :: '"' :: behind) := by
  cases entries with
  | nil => exact .inl ⟨shownAs_plain (by decide), by decide⟩
  | cons first more =>
      obtain ⟨u, hu⟩ := h first List.mem_cons_self
      obtain ⟨behind, hjoin⟩ := shownAsData_join hu fun t ht => by
        obtain ⟨v, hv⟩ := h t (List.mem_cons_of_mem _ ht)
        exact ⟨_, hv⟩
      have hopen : ∀ c ∈ ['{', ' '], c ∈ dataMarks := by decide
      have hclose : ∀ c ∈ [' ', '}'], c ∈ dataMarks := by decide
      have hbetween : ShownAsData (Literal.braces (first :: more))
          (['{', ' '] ++ ('"' :: u ++ behind) ++ [' ', '}']) := hjoin.between hopen hclose
      exact .inr ⟨u ++ behind ++ [' ', '}'], hbetween⟩

mutual

/-- **The literal of a value is shown as data.** -/
theorem shownAsData_render : ∀ v : Value, ∃ u, ShownAsData (Literal.render v) u
  | .null => ⟨_, shownAsData_inert (by decide) (by decide)⟩
  | .bool b => ⟨_, shownAsData_inert (inert_renderBool b) (Alphabet.spells_renderBool b)⟩
  | .number n => ⟨_, shownAsData_inert (inert_format n) (Alphabet.spells_format n)⟩
  | .text t =>
      let ⟨n, hn⟩ := shownAs_quote t
      ⟨_, hn, spells_shownString n⟩
  | .list items =>
      let ⟨_, h⟩ := shownAsData_brackets (shownAsData_renderItems items)
      ⟨_, h⟩
  | .map entries =>
      match shownAsData_braces (shownAsData_renderEntries entries) with
      | .inl h => ⟨_, h⟩
      | .inr ⟨_, h⟩ => ⟨_, h⟩

/-- Every item of a list shows data. -/
theorem shownAsData_renderItems : ∀ items : List Value,
    ∀ t ∈ Literal.renderItems items, ∃ u, ShownAsData t u
  | [], _, ht => absurd ht List.not_mem_nil
  | item :: rest, t, ht => by
      rcases List.mem_cons.1 ht with rfl | ht
      · exact shownAsData_render item
      · exact shownAsData_renderItems rest t ht

/-- Every entry of a map does, and begins with the quote of its key. -/
theorem shownAsData_renderEntries : ∀ entries : List (Text × Value),
    ∀ t ∈ Literal.renderEntries entries, ∃ behind, ShownAsData t ('"' :: behind)
  | [], _, ht => absurd ht List.not_mem_nil
  | (key, value) :: rest, t, ht => by
      rcases List.mem_cons.1 ht with rfl | ht
      · obtain ⟨n, hn⟩ := shownAs_quote key
        obtain ⟨u, hu⟩ := shownAsData_render value
        have hkey : ShownAsData (Literal.quote key) (shownString n) := ⟨hn, spells_shownString n⟩
        have hentry : ShownAsData (Literal.quote key ++ [':', ' '] ++ Literal.render value)
            (shownString n ++ [':', ' '] ++ u) := hkey.append hu (by simp) (by decide)
        rw [List.append_assoc] at hentry
        exact ⟨_, hentry⟩
      · exact shownAsData_renderEntries rest t ht

end

/-! ## Initializers -/

/-- Behind an equals sign, no map that begins with a bare name. -/
def RefusesShorthand (u : Text) : Prop :=
  ∀ before rest, before.head? = some '=' → Rules.shorthand.Misses ⟨before, u ++ ';' :: rest⟩

/-- What stands in front decides, if it is enough. -/
theorem refusesShorthand_of_isRefutedAt {front : Text}
    (h : Rules.shorthand.isRefutedAt ⟨['='], front⟩ = true) (behind : Text) :
    RefusesShorthand (front ++ behind) := by
  intro before rest hbefore
  have hextends : Place.Extends (behind ++ ';' :: rest) ⟨['='], front⟩
      ⟨before, front ++ behind ++ ';' :: rest⟩ := ⟨List.append_assoc _ _ _, hbefore⟩
  exact Pattern.misses_of_isRefutedAt h hextends

/-- Data without a brace. -/
theorem refusesShorthand_of_inert {u : Text} (hu : Alphabet.data.Spells u) (hinert : Inert u) :
    RefusesShorthand (' ' :: u) := by
  intro before rest _
  let braceless : Alphabet := ⟨Alphabet.data.letters.filter (· ≠ '{'), fun _ _ => true⟩
  have hspells : braceless.Spells (' ' :: u) := by
    refine Alphabet.spells_of_forall fun c hc => ⟨?_, fun _ => rfl⟩
    rcases List.mem_cons.1 hc with rfl | hc
    · decide
    · refine List.mem_filter.2 ⟨hu.letters c hc, ?_⟩
      have hbrace : c ≠ '{' := by
        rintro rfl
        exact hinert '{' hc (by decide)
      simpa using hbrace
  refine Pattern.misses_of_isForeign (by decide +kernel) hspells (fun c hc => ?_) before
  obtain rfl : ';' = c := by simpa using hc
  decide

/-- Behind a blank, the literal of a value does not look like the body of a shorthand function. -/
theorem refusesShorthand_render (v : Value) :
    ∃ u, ShownAsData (Literal.render v) u ∧ RefusesShorthand (' ' :: u) := by
  cases v with
  | null =>
      have hnull : Alphabet.data.Spells "null".toList := by decide
      exact ⟨_, shownAsData_inert (by decide) hnull, refusesShorthand_of_inert hnull (by decide)⟩
  | bool b =>
      have hspells := Alphabet.spells_renderBool b
      have hinert := inert_renderBool b
      exact ⟨_, shownAsData_inert hinert hspells, refusesShorthand_of_inert hspells hinert⟩
  | number n =>
      have hspells := Alphabet.spells_format n
      have hinert := inert_format n
      exact ⟨_, shownAsData_inert hinert hspells, refusesShorthand_of_inert hspells hinert⟩
  | text t =>
      obtain ⟨n, hn⟩ := shownAs_quote t
      have hfront : Rules.shorthand.isRefutedAt ⟨['='], [' ', '"']⟩ = true := by decide
      exact ⟨_, ⟨hn, spells_shownString n⟩, refusesShorthand_of_isRefutedAt hfront _⟩
  | list items =>
      obtain ⟨behind, h⟩ := shownAsData_brackets (shownAsData_renderItems items)
      have hfront : Rules.shorthand.isRefutedAt ⟨['='], [' ', '[']⟩ = true := by decide
      exact ⟨_, h, refusesShorthand_of_isRefutedAt hfront behind⟩
  | map entries =>
      rcases shownAsData_braces (shownAsData_renderEntries entries) with h | ⟨behind, h⟩
      · have hfront : Rules.shorthand.isRefutedAt ⟨['='], [' ', '{', '}']⟩ = true := by decide
        exact ⟨_, h, refusesShorthand_of_isRefutedAt hfront []⟩
      · have hfront : Rules.shorthand.isRefutedAt ⟨['='], [' ', '{', ' ', '"']⟩ = true := by decide
        exact ⟨_, h, refusesShorthand_of_isRefutedAt hfront behind⟩

/-- What a mode other than raw makes of a value. -/
theorem refusesShorthand_initializer {mode : BindingMode} (hmode : mode ≠ .raw) {value : Value}
    {initializer : Text} (h : mode.initializer? value = some initializer) :
    ∃ u, ShownAsData initializer u ∧ RefusesShorthand (' ' :: u) := by
  obtain ⟨v, rfl⟩ := BindingMode.exists_render_of_initializer? (fun hraw => absurd hraw hmode) h
  exact refusesShorthand_render v

/-- The arguments of a regular expression are data, with the closing parenthesis. -/
theorem shownAsData_regexArguments {content flags : Text} (hcontent : Sealed content)
    (hflags : Builder.flagsAllowed flags = true) :
    ∃ behind, ShownAsData (('"' :: content ++ ['"']) ++
      ((if flags.isEmpty then [] else [',', ' '] ++ ('"' :: flags ++ ['"'])) ++ [')']))
      ('"' :: behind) := by
  have hquoted {t : Text} (ht : Sealed t) :
      ShownAsData ('"' :: t ++ ['"']) (shownString t.length) :=
    ⟨shownAs_quoted ht, spells_shownString _⟩
  have hnone {c : Char} (hc : c ∈ ([] : Text)) : c ∈ dataMarks := absurd hc List.not_mem_nil
  split
  · have hclosed : ShownAsData ([] ++ ('"' :: content ++ ['"']) ++ [')'])
        ([] ++ shownString content.length ++ [')']) :=
      (hquoted hcontent).between (fun _ => hnone) (by decide)
    exact ⟨_, hclosed⟩
  · have hboth : ShownAsData (('"' :: content ++ ['"']) ++ [',', ' '] ++ ('"' :: flags ++ ['"']))
        (shownString content.length ++ [',', ' '] ++ shownString flags.length) :=
      (hquoted hcontent).append (hquoted (sealed_flags hflags)) (by simp) (by decide)
    have hclosed : ShownAsData ([] ++ (('"' :: content ++ ['"']) ++ [',', ' '] ++
        ('"' :: flags ++ ['"'])) ++ [')']) ([] ++ (shownString content.length ++ [',', ' '] ++
          shownString flags.length) ++ [')']) := hboth.between (fun _ => hnone) (by decide)
    rw [List.nil_append, List.append_assoc, List.append_assoc] at hclosed
    exact ⟨_, hclosed⟩

end Scan

end Scriptwright
