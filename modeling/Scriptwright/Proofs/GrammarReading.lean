import Scriptwright.Proofs.EscapeRoundTrip
import Scriptwright.Proofs.LiteralEnds
import Scriptwright.Proofs.LiteralGrammar

/-!
# The reader and the grammar

The literal reader accepts the literals of the grammar (`Literal.IsLiteral`), and of
each it returns what the items denote.  This is shown part by part, in both directions
at once where the part is read without regard to what follows: digits
(`takeHex_eq_ok_iff`), codes with what completes them (`readEscape_code_iff`), escape
sequences (`readEscape_of_sequence`, `exists_sequence_of_readEscape`), the items up to
the closing quote (`readBody_of_items`, `exists_items_of_readBody`).

The one thing that depends on what follows is a line end: behind a carriage return a
line feed would be taken too.  No item begins with a line feed, so this never happens
inside a literal.

The digits between braces are read by a general reader of numbers, which takes a plus
sign before them, and the dialect has no such escape.  So **the reader accepts the
literals of the grammar and those that have such a sign, and no text begins with both**
(`read?_eq_ok_iff_literal`).  What follows the literal does not matter.
-/

namespace Scriptwright

namespace Literal

variable {t rest : Text} {n : Nat} {c : Char}

/-! ## Digits -/

/-- **So many digits** are taken, and count behind the value of those before. -/
theorem takeHex_eq_ok_iff {wanted count value : Nat} :
    takeHex wanted count value t = .ok (n, rest) ↔ ∃ digits m, t = digits ++ rest ∧
      digits.length = count ∧ SpellsHex digits m ∧ n = 16 ^ count * value + m := by
  induction count generalizing value t with
  | zero =>
      constructor
      · intro h
        obtain ⟨rfl, rfl⟩ := Prod.mk.inj (Except.ok.inj h)
        exact ⟨[], 0, rfl, rfl, spellsHex_nil_iff.2 rfl, by simp⟩
      · rintro ⟨digits, m, rfl, hlength, hdigits, rfl⟩
        obtain rfl := List.length_eq_zero_iff.1 hlength
        obtain rfl := spellsHex_nil_iff.1 hdigits
        simp [takeHex]
  | succ count ih =>
      constructor
      · intro h
        cases t with
        | nil => cases h
        | cons d t =>
            rw [takeHex] at h
            split at h
            next digit hdigit =>
              obtain ⟨digits, m, rfl, hlength, hdigits, rfl⟩ := ih.1 h
              refine ⟨d :: digits, 16 ^ count * digit + m, rfl, by simp [hlength],
                spellsHex_cons_iff.2 ⟨digit, m, hexDigit?_eq_some_iff.1 hdigit, hdigits,
                  by rw [hlength]⟩, ?_⟩
              ring
            next => cases h
      · rintro ⟨digits, m, rfl, hlength, hspelled, rfl⟩
        cases digits with
        | nil => cases hlength
        | cons d digits =>
            have hrest : digits.length = count := by simpa using hlength
            obtain ⟨digit, low, hd, hdigits, rfl⟩ := spellsHex_cons_iff.1 hspelled
            rw [List.cons_append, takeHex, hexDigit?_eq_some_iff.2 hd]
            refine ih.2 ⟨digits, low, rfl, hrest, hdigits, ?_⟩
            rw [hrest]
            ring

theorem takeHex_zero_iff {wanted count : Nat} :
    takeHex wanted count 0 t = .ok (n, rest) ↔
      ∃ digits, t = digits ++ rest ∧ digits.length = count ∧ SpellsHex digits n := by
  rw [takeHex_eq_ok_iff]
  simp

/-- **All digits of a text** are read if the number stays below `2 ^ 32`. -/
theorem hexValue_eq_ok_iff {value : Nat} (hvalue : value < 2 ^ 32) :
    hexValue value t = .ok n ↔
      ∃ m, SpellsHex t m ∧ n = 16 ^ t.length * value + m ∧ n < 2 ^ 32 := by
  induction t generalizing value with
  | nil =>
      constructor
      · intro h
        obtain rfl := Except.ok.inj h
        exact ⟨0, spellsHex_nil_iff.2 rfl, by simp, hvalue⟩
      · rintro ⟨m, hm, rfl, -⟩
        obtain rfl := spellsHex_nil_iff.1 hm
        simp [hexValue]
  | cons d t ih =>
      have hsum (digit m : Nat) : 16 ^ (d :: t).length * value + (16 ^ t.length * digit + m) =
          16 ^ t.length * (16 * value + digit) + m := by
        rw [List.length_cons]
        ring
      constructor
      · intro h
        rw [hexValue] at h
        split at h
        next => cases h
        next digit hdigit =>
          have hd := hexDigit?_eq_some_iff.1 hdigit
          split at h
          next => cases h
          next hsmall =>
            have hnext : 16 * value + digit < 2 ^ 32 := by
              have := hd.1
              simp only [Nat.pow_eq] at hsmall
              omega
            obtain ⟨m, hm, hn, hbound⟩ := (ih hnext).1 h
            exact ⟨_, spellsHex_cons_iff.2 ⟨digit, m, hd, hm, rfl⟩, by rw [hsum, hn], hbound⟩
      · rintro ⟨_, hspelled, rfl, hbound⟩
        obtain ⟨digit, m, hd, hm, rfl⟩ := spellsHex_cons_iff.1 hspelled
        have hnext : 16 * value + digit < 2 ^ 32 := by
          have hone : 1 ≤ 16 ^ t.length := Nat.one_le_pow _ _ (by decide)
          have hgrown := Nat.mul_le_mul_right (16 * value + digit) hone
          rw [hsum] at hbound
          omega
        have hsmall : ¬ Nat.pow 2 28 ≤ value := by
          simp only [Nat.pow_eq]
          omega
        rw [hexValue, hexDigit?_eq_some_iff.2 hd]
        dsimp only
        rw [if_neg hsmall]
        exact (ih hnext).2 ⟨m, hm, hsum digit m, hbound⟩

/-- **Between braces** stand one or more digits, behind a plus sign or without. -/
theorem bracedValue_eq_ok_iff : bracedValue t = .ok n ↔
    ∃ plus digits, t = sign plus ++ digits ∧ digits ≠ [] ∧ SpellsHex digits n ∧ n < 2 ^ 32 := by
  have hvalue {digits : Text} :
      hexValue 0 digits = .ok n ↔ SpellsHex digits n ∧ n < 2 ^ 32 := by
    rw [hexValue_eq_ok_iff (by decide)]
    simp
  constructor
  · intro h
    unfold bracedValue at h
    split at h
    next => cases h
    next => cases h
    next digits hsome => exact ⟨true, digits, rfl, hsome, hvalue.1 h⟩
    next hsome _ _ => exact ⟨false, t, rfl, hsome, hvalue.1 h⟩
  · rintro ⟨plus, digits, rfl, hsome, hdigits⟩
    cases plus with
    | true =>
        rw [sign, if_pos rfl, List.singleton_append, bracedValue.eq_3 digits hsome]
        exact hvalue.2 hdigits
    | false =>
        have hplus : '+' ∉ digits := hdigits.1.not_mem (by decide)
        rw [sign, if_neg Bool.false_ne_true, List.nil_append, bracedValue.eq_4 digits hsome
          (fun heq => hplus (heq ▸ List.mem_cons_self))
          fun _ heq => hplus (heq ▸ List.mem_cons_self)]
        exact hvalue.2 hdigits

/-! ## Escape sequences -/

theorem charOf_eq_ok_iff : charOf n = .ok c ↔ n.isValidChar ∧ c = Char.ofNat n := by
  have hvalid : n < 0xD800 ∨ (0xE000 ≤ n ∧ n < 0x110000) ↔ n.isValidChar := by
    unfold Nat.isValidChar
    omega
  rw [charOf]
  split
  next h => simp [hvalid.1 h, eq_comm]
  next h => simp [mt hvalid.2 h]

/-- **Behind a code** is taken what completes it. -/
theorem takeUnit_eq_ok_iff :
    takeUnit n t = .ok (c, rest) ↔ ∃ tail, t = tail ++ rest ∧ Completes n tail c := by
  have hlow {low : Nat} (hhigh : 0xD800 ≤ n ∧ n < 0xDC00) (hlow : 0xDC00 ≤ low ∧ low < 0xE000) :
      (0x10000 + (n - 0xD800) * 1024 + (low - 0xDC00)).isValidChar := by
    unfold Nat.isValidChar
    omega
  constructor
  · intro h
    unfold takeUnit at h
    split at h
    next hhigh =>
      split at h
      next more =>
        split at h
        next => cases h
        next low behind htake =>
          obtain ⟨digits, rfl, hlength, hdigits⟩ := takeHex_zero_iff.1 htake
          split at h
          next hpair =>
            split at h
            next => cases h
            next hchar =>
              obtain ⟨rfl, rfl⟩ := Prod.mk.inj (Except.ok.inj h)
              rw [(charOf_eq_ok_iff.1 hchar).2]
              exact ⟨'\\' :: 'u' :: digits, rfl, .paired hhigh hdigits hlength hpair⟩
          next => cases h
      next => cases h
    next =>
      split at h
      next => cases h
      next hchar =>
        obtain ⟨rfl, rfl⟩ := Prod.mk.inj (Except.ok.inj h)
        obtain ⟨hn, rfl⟩ := charOf_eq_ok_iff.1 hchar
        exact ⟨[], rfl, .alone hn⟩
  · rintro ⟨tail, rfl, htail⟩
    cases htail with
    | alone hn =>
        have hhigh : ¬ (0xD800 ≤ n ∧ n < 0xDC00) := by
          unfold Nat.isValidChar at hn
          omega
        unfold takeUnit
        rw [if_neg hhigh, charOf_eq_ok_iff.2 ⟨hn, rfl⟩]
        rfl
    | @paired digits low hhigh hdigits hlength hpair =>
        have htake : takeHex 4 4 0 (digits ++ rest) = .ok (low, rest) :=
          takeHex_zero_iff.2 ⟨digits, rfl, hlength, hdigits⟩
        unfold takeUnit
        rw [if_pos hhigh]
        simp only [List.cons_append, htake, if_pos hpair,
          charOf_eq_ok_iff.2 ⟨hlow hhigh hpair, rfl⟩]

/-- **A byte**: two digits. -/
theorem readEscape_byte_iff {value : Text} : readEscape ('x' :: t) = .ok (value, rest) ↔
    ∃ digits n, t = digits ++ rest ∧ SpellsHex digits n ∧ digits.length = 2 ∧
      value = [Char.ofNat n] := by
  rw [readEscape.eq_3]
  constructor
  · intro h
    split at h
    next => cases h
    next htake =>
      obtain ⟨digits, rfl, hlength, hdigits⟩ := takeHex_zero_iff.1 htake
      split at h
      next => cases h
      next hchar =>
        obtain ⟨rfl, rfl⟩ := Prod.mk.inj (Except.ok.inj h)
        obtain ⟨-, rfl⟩ := charOf_eq_ok_iff.1 hchar
        exact ⟨digits, _, rfl, hdigits, hlength, rfl⟩
  · rintro ⟨digits, n, rfl, hdigits, hlength, rfl⟩
    have htake : takeHex 2 2 0 (digits ++ rest) = .ok (n, rest) :=
      takeHex_zero_iff.2 ⟨digits, rfl, hlength, hdigits⟩
    have hn : n.isValidChar := by
      have hbound := hdigits.lt
      rw [hlength] at hbound
      exact .inl (by omega)
    rw [htake]
    dsimp only
    rw [charOf_eq_ok_iff.2 ⟨hn, rfl⟩]

/-- **A code** in either form, with what completes it. -/
theorem readEscape_code_iff {value : Text} : readEscape ('u' :: t) = .ok (value, rest) ↔
    ∃ plus code n tail c, t = code ++ (tail ++ rest) ∧ Code plus code n ∧ Completes n tail c ∧
      value = [c] := by
  constructor
  · intro h
    by_cases hbrace : ∃ u, t = '{' :: u
    · obtain ⟨u, rfl⟩ := hbrace
      rw [readEscape.eq_4] at h
      split at h
      next => cases h
      next inner behind hbreak =>
        obtain rfl := eq_append_of_breakOnce? hbreak
        split at h
        next => cases h
        next n hvalue =>
          obtain ⟨plus, digits, rfl, hsome, hdigits, -⟩ := bracedValue_eq_ok_iff.1 hvalue
          split at h
          next => cases h
          next c _ hunit =>
            obtain ⟨rfl, rfl⟩ := Prod.mk.inj (Except.ok.inj h)
            obtain ⟨tail, rfl, htail⟩ := takeUnit_eq_ok_iff.1 hunit
            exact ⟨plus, _, n, tail, c, by simp, .braced plus hdigits hsome, htail, rfl⟩
    · rw [readEscape.eq_5 t fun u heq => hbrace ⟨u, heq⟩] at h
      split at h
      next => cases h
      next htake =>
        obtain ⟨digits, rfl, hlength, hdigits⟩ := takeHex_zero_iff.1 htake
        split at h
        next => cases h
        next c _ hunit =>
          obtain ⟨rfl, rfl⟩ := Prod.mk.inj (Except.ok.inj h)
          obtain ⟨tail, rfl, htail⟩ := takeUnit_eq_ok_iff.1 hunit
          exact ⟨false, digits, _, tail, c, rfl, .four hdigits hlength, htail, rfl⟩
  · rintro ⟨plus, code, n, tail, c, rfl, hcode, htail, rfl⟩
    have hunit : takeUnit n (tail ++ rest) = .ok (c, rest) :=
      takeUnit_eq_ok_iff.2 ⟨tail, rfl, htail⟩
    cases hcode with
    | four hdigits hlength =>
        have hbrace : ∀ u, code ++ (tail ++ rest) ≠ '{' :: u := by
          intro u heq
          cases code with
          | nil => cases hlength
          | cons d code =>
              obtain ⟨rfl, -⟩ := List.cons.inj heq
              exact hdigits.not_mem (by decide) List.mem_cons_self
        have htake : takeHex 4 4 0 (code ++ (tail ++ rest)) = .ok (n, tail ++ rest) :=
          takeHex_zero_iff.2 ⟨code, rfl, hlength, hdigits⟩
        rw [readEscape.eq_5 _ hbrace, htake]
        dsimp only
        rw [hunit]
    | @braced _ digits _ hdigits hsome =>
        have hinner : '\x7d' ∉ sign plus ++ digits := by
          have hsign : '\x7d' ∉ sign plus := by cases plus <;> decide
          simp [hsign, hdigits.not_mem (show hexDigit? '\x7d' = none by decide)]
        have hbreak := Text.breakOnce?_append hinner (tail ++ rest)
        have hbound : n < 2 ^ 32 := by
          cases htail with
          | alone hn =>
              unfold Nat.isValidChar at hn
              omega
          | paired hhigh => omega
        have hvalue : bracedValue (sign plus ++ digits) = .ok n :=
          bracedValue_eq_ok_iff.2 ⟨plus, digits, rfl, hsome, hdigits, hbound⟩
        have hshape : '{' :: (sign plus ++ digits ++ ['\x7d']) ++ (tail ++ rest) =
            '{' :: (sign plus ++ digits ++ '\x7d' :: (tail ++ rest)) := by simp
        rw [hshape, readEscape.eq_4, hbreak]
        dsimp only
        rw [hvalue]
        dsimp only
        rw [hunit]

/-- What a letter of the reader's table stands for. -/
theorem shortEscape_of_mem {d : Char} (h : (c, d) ∈ controls) : shortEscape c = d := by
  have hall : ∀ entry ∈ controls, shortEscape entry.1 = entry.2 := by decide
  exact hall _ h

/-- A character that has no entry stands for itself. -/
theorem shortEscape_of_not_mem (h : ∀ d, (c, d) ∉ controls) : shortEscape c = c := by
  have hname : c ∉ controls.map Prod.fst := by simpa using h
  simp only [controls, List.map_cons, List.map_nil, List.mem_cons, not_or] at hname
  simp [shortEscape, hname]

theorem mem_lineEnds_iff : [c] ∈ lineEnds ↔ isLineTerminator c = true := by
  simp [lineEnds, isLineTerminator, or_assoc]

/-- What is read behind a backslash if it is no number. -/
theorem readEscape_other (hx : c ≠ 'x') (hu : c ≠ 'u')
    (hfeed : c = '\r' → rest.head? ≠ some '\n') : readEscape (c :: rest) =
      if isLineTerminator c then .ok ([], rest) else .ok ([shortEscape c], rest) :=
  readEscape.eq_6 c rest (fun _ hc hrest => hfeed hc (by rw [hrest]; rfl)) hx
    (fun _ hc _ => hu hc) hu

/-- **Every sequence of the grammar is read**, whatever follows it but a line feed. -/
theorem readEscape_of_sequence {plus : Bool} {e value : Text} (h : Sequence plus e value)
    (hfeed : rest.head? ≠ some '\n') : readEscape (e ++ rest) = .ok (value, rest) := by
  cases h with
  | @control name c h =>
      have hnames : ∀ entry ∈ controls, entry.1 ≠ 'x' ∧ entry.1 ≠ 'u' ∧
          isLineTerminator entry.1 = false := by decide
      obtain ⟨hx, hu, hline⟩ := hnames _ h
      rw [List.singleton_append, readEscape_other hx hu fun _ => hfeed, hline, shortEscape_of_mem h]
      rfl
  | byte hdigits hlength => exact readEscape_byte_iff.2 ⟨_, _, rfl, hdigits, hlength, rfl⟩
  | @code plus code tail n c hcode htail =>
      rw [List.cons_append, List.append_assoc]
      exact readEscape_code_iff.2 ⟨plus, code, n, tail, c, rfl, hcode, htail, rfl⟩
  | lineEnd h =>
      simp only [lineEnds, List.mem_cons, List.not_mem_nil, or_false] at h
      rcases h with rfl | rfl | rfl | rfl | rfl
      · rfl
      · exact readEscape_other (by decide) (by decide) fun _ => hfeed
      · rfl
      · rfl
      · rfl
  | other hx hu hline hcontrol =>
      rw [List.singleton_append, readEscape_other hx hu fun _ => hfeed, hline,
        shortEscape_of_not_mem hcontrol]
      rfl

/-- **What is read behind a backslash is a sequence of the grammar.** -/
theorem exists_sequence_of_readEscape {value : Text} (h : readEscape t = .ok (value, rest)) :
    ∃ plus e, t = e ++ rest ∧ Sequence plus e value := by
  cases t with
  | nil => cases h
  | cons c t =>
      by_cases hx : c = 'x'
      · subst hx
        obtain ⟨digits, n, rfl, hdigits, hlength, rfl⟩ := readEscape_byte_iff.1 h
        exact ⟨false, 'x' :: digits, rfl, .byte hdigits hlength⟩
      by_cases hu : c = 'u'
      · subst hu
        obtain ⟨plus, code, n, tail, c, rfl, hcode, htail, rfl⟩ := readEscape_code_iff.1 h
        exact ⟨plus, 'u' :: (code ++ tail), by simp, .code hcode htail⟩
      by_cases hpair : c = '\r' ∧ t.head? = some '\n'
      · obtain ⟨rfl, hfeed⟩ := hpair
        cases t with
        | nil => cases hfeed
        | cons d t =>
            obtain rfl := Option.some.inj hfeed
            obtain ⟨rfl, rfl⟩ := Prod.mk.inj (Except.ok.inj h)
            exact ⟨false, ['\r', '\n'], rfl, .lineEnd (by decide)⟩
      rw [readEscape_other hx hu fun hc hfeed => hpair ⟨hc, hfeed⟩] at h
      split at h
      next hline =>
        obtain ⟨rfl, rfl⟩ := Prod.mk.inj (Except.ok.inj h)
        exact ⟨false, [c], rfl, .lineEnd (mem_lineEnds_iff.2 hline)⟩
      next hline =>
        obtain ⟨rfl, rfl⟩ := Prod.mk.inj (Except.ok.inj h)
        refine ⟨false, [c], rfl, ?_⟩
        by_cases hcontrol : ∃ d, (c, d) ∈ controls
        · obtain ⟨d, hd⟩ := hcontrol
          rw [shortEscape_of_mem hd]
          exact .control hd
        · have hnone : ∀ d, (c, d) ∉ controls := fun d hd => hcontrol ⟨d, hd⟩
          rw [shortEscape_of_not_mem hnone]
          exact .other hx hu (by simpa using hline) hnone

/-! ## Items -/

variable {mark : Char} {plus : Bool} {body value behind : Text}

/-- No item begins with a line feed, nor does the quote behind the last. -/
theorem Items.head_ne_feed (h : Items mark plus body value) (hmark : mark = '"' ∨ mark = '\'')
    (behind : Text) : (body ++ mark :: behind).head? ≠ some '\n' := by
  have hfeed : isLineTerminator '\n' = true := by decide
  cases h with
  | nil => rcases hmark with rfl | rfl <;> simp
  | cons first rest =>
      cases first with
      | plain hne hback hline =>
          intro heq
          obtain rfl := Option.some.inj heq
          rw [hfeed] at hline
          cases hline
      | escaped h => simp

/-- **Items are read up to the quote behind them.** -/
theorem readBody_of_items (hmark : mark = '"' ∨ mark = '\'') (h : Items mark plus body value)
    (total : Nat) : readBody total mark (body ++ mark :: behind) = .ok (value, behind) := by
  have hback : mark ≠ '\\' := by rcases hmark with rfl | rfl <;> decide
  induction h with
  | nil =>
      rw [List.nil_append, readBody]
      simp
  | cons first rest ih =>
      rw [List.append_assoc]
      cases first with
      | plain hne hslash hline => exact readBody_plain hne hline hslash ih
      | escaped h =>
          exact readBody_sequence hback (readEscape_of_sequence h (rest.head_ne_feed hmark _)) ih

/-- **What is read up to a quote is items.** -/
theorem exists_items_of_readBody {total : Nat} (h : readBody total mark t = .ok (value, behind)) :
    ∃ plus body, t = body ++ mark :: behind ∧ Items mark plus body value := by
  induction hlen : t.length using Nat.strongRecOn generalizing t value with
  | ind n ih =>
      rcases readBody_cases h with ⟨rfl, rfl⟩ | ⟨rest, decoded, after, value, rfl, hescape, hread, rfl⟩ |
        ⟨c, rest, value, rfl, hmark, hline, hback, hread, rfl⟩
      · exact ⟨false, [], rfl, .nil⟩
      · have hshorter := readEscape_length hescape
        obtain ⟨plus, e, rfl, hsequence⟩ := exists_sequence_of_readEscape hescape
        obtain ⟨more, body, rfl, hbody⟩ :=
          ih after.length (by rw [← hlen, List.length_cons]; omega) hread rfl
        exact ⟨plus || more, '\\' :: e ++ body, by simp, .cons (.escaped hsequence) hbody⟩
      · obtain ⟨more, body, rfl, hbody⟩ :=
          ih rest.length (by rw [← hlen, List.length_cons]; omega) hread rfl
        exact ⟨false || more, [c] ++ body, rfl, .cons (.plain hmark hback hline) hbody⟩

/-! ## The plus sign -/

/-- A sequence has the sign exactly if it begins so. -/
theorem Sequence.plus_iff {e : Text} (h : Sequence plus e value) :
    plus = true ↔ "u\x7b+".toList <+: e := by
  cases h with
  | control h =>
      simp
  | byte => simp
  | @code plus code tail n c hcode =>
      cases hcode with
      | four hdigits hlength =>
          cases code with
          | nil => cases hlength
          | cons d code =>
              have hd : d ≠ '{' := by
                rintro rfl
                exact hdigits.not_mem (by decide) List.mem_cons_self
              simp [hd.symm]
      | @braced _ digits _ hdigits hsome =>
          cases plus with
          | true => simp [sign]
          | false =>
              cases digits with
              | nil => exact absurd rfl hsome
              | cons d digits =>
                  have hd : d ≠ '+' := by
                    rintro rfl
                    exact hdigits.not_mem (by decide) List.mem_cons_self
                  simp [sign, hd.symm]
  | lineEnd h =>
      have hnone : ∀ e ∈ lineEnds, ¬ "u\x7b+".toList <+: e := by decide
      simpa using hnone e h
  | other hx hu => simp [hu.symm]

/-- **Items that stand at the same place** before the quote agree on whether they have the sign. -/
theorem Items.plus_unique (hmark : mark = '"' ∨ mark = '\'') {more : Bool} {u values rest : Text}
    (h : Items mark plus body value) (h' : Items mark more u values)
    (heq : body ++ mark :: behind = u ++ mark :: rest) : plus = more := by
  have hback : mark ≠ '\\' := by rcases hmark with rfl | rfl <;> decide
  -- An item begins with a character that is not the quote.
  have hfirst {p : Bool} {t v w : Text} (hitem : Item mark p t v) {s : Text}
      (hs : mark :: s = t ++ w) : False := by
    cases hitem with
    | plain hne => exact hne (List.cons.inj hs).1.symm
    | escaped => exact hback (List.cons.inj hs).1
  induction h generalizing more u values with
  | nil =>
      cases h' with
      | nil => rfl
      | cons first => exact (hfirst first (heq.trans (List.append_assoc _ _ _))).elim
  | cons first tail ih =>
      rw [List.append_assoc] at heq
      cases h' with
      | nil => exact (hfirst first heq.symm).elim
      | cons first' tail' =>
          rw [List.append_assoc] at heq
          cases first with
          | plain hne hslash =>
              cases first' with
              | plain =>
                  rw [ih tail' (List.cons.inj heq).2]
              | escaped => exact absurd (List.cons.inj heq).1 hslash
          | escaped hsequence =>
              cases first' with
              | plain _ hslash => exact absurd (List.cons.inj heq).1.symm hslash
              | escaped hsequence' =>
                  simp only [List.cons_append, List.cons.injEq, true_and] at heq
                  have hread := readEscape_of_sequence hsequence (tail.head_ne_feed hmark behind)
                  have hread' := readEscape_of_sequence hsequence' (tail'.head_ne_feed hmark rest)
                  rw [heq, hread'] at hread
                  have hrest := (Prod.mk.inj (Except.ok.inj hread)).2
                  rw [hrest] at heq
                  obtain rfl := List.append_cancel_right heq
                  have hsign := Bool.eq_iff_iff.2
                    (hsequence.plus_iff.trans hsequence'.plus_iff.symm)
                  rw [hsign, ih tail' hrest.symm]

/-! ## Literals -/

variable {src literal : Text} {used : Nat}

/-- **A literal is read whole**, whatever follows it. -/
theorem read?_of_isLiteral (h : IsLiteral plus literal value) (behind : Text) :
    read? (literal ++ behind) = .ok (value, Text.byteLength literal) := by
  obtain ⟨mark, body, hmark, rfl, hbody⟩ := h
  have hshape : mark :: body ++ [mark] ++ behind = mark :: (body ++ mark :: behind) := by simp
  have hsplit : split? (mark :: body ++ [mark] ++ behind) = .ok (value, behind) := by
    rw [hshape, split?, if_pos hmark]
    exact readBody_of_items hmark hbody _
  rw [read?, hsplit, Text.byteLength_append]
  simp

/-- **What is read is a literal.** -/
theorem exists_literal_of_read? (h : read? src = .ok (value, used)) :
    ∃ plus, BeginsWithLiteral plus src value used := by
  rw [read?] at h
  split at h
  next => cases h
  next behind hsplit =>
    obtain ⟨rfl, rfl⟩ := Prod.mk.inj (Except.ok.inj h)
    cases src with
    | nil => cases hsplit
    | cons mark t =>
        rw [split?] at hsplit
        split at hsplit
        next hmark =>
          obtain ⟨plus, body, rfl, hbody⟩ := exists_items_of_readBody hsplit
          have hshape : mark :: (body ++ mark :: behind) = mark :: body ++ [mark] ++ behind := by
            simp
          refine ⟨plus, _, behind, hshape, ⟨mark, body, hmark, rfl, hbody⟩, ?_⟩
          rw [hshape, Text.byteLength_append, Nat.add_sub_cancel_right]
        next => cases hsplit

/-- **No text begins with a literal of the dialect and with one that has the sign.** -/
theorem not_begins_with_both (src : Text) :
    ¬ ((∃ value used, BeginsWithLiteral false src value used) ∧
      ∃ value used, BeginsWithLiteral true src value used) := by
  rintro ⟨⟨_, _, _, behind, rfl, ⟨mark, body, hmark, rfl, hbody⟩, -⟩,
    _, _, _, behind', heq, ⟨mark', body', -, rfl, hbody'⟩, -⟩
  simp only [List.cons_append, List.append_assoc, List.nil_append] at heq
  obtain ⟨rfl, hrest⟩ := List.cons.inj heq
  have hsign := Items.plus_unique hmark hbody hbody' hrest
  cases hsign

/-- **The reader accepts the literals of the grammar, and those with a plus sign between braces.**
It returns a value and a number of bytes exactly if the text begins with a literal that denotes the
value and takes so many bytes, whatever follows; the literal is of the dialect, or some code in it
has a plus sign.  No text begins with literals of both kinds. -/
theorem read?_eq_ok_iff_literal (src : Text) :
    (∀ value used, read? src = .ok (value, used) ↔
      BeginsWithLiteral false src value used ∨ BeginsWithLiteral true src value used) ∧
    ¬ ((∃ value used, BeginsWithLiteral false src value used) ∧
      ∃ value used, BeginsWithLiteral true src value used) := by
  refine ⟨fun value used => ⟨fun h => ?_, fun h => ?_⟩, not_begins_with_both src⟩
  · obtain ⟨plus, hplus⟩ := exists_literal_of_read? h
    cases plus with
    | false => exact .inl hplus
    | true => exact .inr hplus
  · rcases h with ⟨literal, behind, rfl, hliteral, rfl⟩ | ⟨literal, behind, rfl, hliteral, rfl⟩
    · exact read?_of_isLiteral hliteral behind
    · exact read?_of_isLiteral hliteral behind

/-- A plus sign between braces is read, though the text begins with no literal of the dialect. -/
theorem plus_between_braces_is_read :
    let src : Text := "\"\\u\x7b+41\x7d\"".toList
    read? src = .ok (['A'], 9) ∧ ¬ ∃ value used, BeginsWithLiteral false src value used := by
  intro src
  refine ⟨by decide +kernel, fun hdialect => not_begins_with_both src ⟨hdialect, ?_⟩⟩
  have hdigits : SpellsHex ['4', '1'] 0x41 :=
    ⟨[4, 1], .cons ⟨by decide, .inl rfl⟩ (.cons ⟨by decide, .inl rfl⟩ .nil), rfl⟩
  have hcode : Code true "\x7b+41\x7d".toList 0x41 := .braced true hdigits (by decide)
  have hitem : Item '"' true "\\u\x7b+41\x7d".toList ['A'] :=
    .escaped (.code hcode (.alone (by decide)))
  exact ⟨['A'], 9, src, [], rfl, ⟨'"', _, .inl rfl, rfl, .cons hitem .nil⟩, by decide⟩

end Literal

end Scriptwright
