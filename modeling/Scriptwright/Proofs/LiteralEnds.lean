import Mathlib.Data.List.Infix
import Scriptwright.Literal.Read
import Scriptwright.Proofs.ScanState

/-!
# Where a string ends

Two readers of strings meet here.  The literal reader knows ten forms of escape
sequence; the scanner knows one, a backslash and whatever character comes next.
They agree on where a string ends because of what both pass over: characters that
are neither the quote nor a backslash nor a line feed, and pairs of a backslash and
any character (`Literal.Held`).  Of every escape sequence the digits and braces
behind the first character are such characters, and the low half of a pair of
surrogates is such a pair.

One sequence is not held: a backslash before a carriage return and a line feed,
which the reader takes for one line end.  The scanner takes the return along with
the backslash and is cut off by the feed.  So **the first literal of a script is the
one the reader reads, up to the first line feed behind a carriage return**
(`beginsWithString_of_read?`); with such a line end in it, the literal is cut off
(`cut_off_at_return_and_feed`).
-/

namespace Scriptwright

namespace Literal

/-- What passes between quotes of a kind without ending the string: plain characters, and pairs of
a backslash and any character. -/
inductive Held (mark : Char) : Text → Prop where
  | nil : Held mark []
  | plain {c : Char} {t : Text} (hmark : c ≠ mark) (hback : c ≠ '\\') (hfeed : c ≠ '\n')
      (rest : Held mark t) : Held mark (c :: t)
  | escaped (c : Char) {t : Text} (rest : Held mark t) : Held mark ('\\' :: c :: t)

variable {mark : Char} {t u : Text}

/-- What passes between quotes may be put together. -/
theorem Held.append (ht : Held mark t) (hu : Held mark u) : Held mark (t ++ u) := by
  induction ht with
  | nil => exact hu
  | plain hmark hback hfeed _ ih => exact .plain hmark hback hfeed ih
  | escaped c _ ih => exact .escaped c ih

/-- A carriage return and a line feed behind it. -/
def returnFeed : Text := ['\r', '\n']

/-- What is held between quotes has a line feed only behind a backslash. -/
theorem Held.no_returnFeed (h : Held mark t) : ¬ returnFeed <:+: t := by
  have hfirst {u : Text} (hu : Held mark u) : u.head? ≠ some '\n' := by
    cases hu with
    | nil => simp
    | plain _ _ hfeed _ => simpa using hfeed
    | escaped _ _ => simp
  have hstart {c : Char} {u : Text} (hu : Held mark u) : ¬ returnFeed <+: c :: u := by
    rintro ⟨behind, heq⟩
    exact hfirst hu (by rw [← (List.cons.inj heq).2]; rfl)
  induction h with
  | nil => simp [returnFeed]
  | plain _ _ _ rest ih =>
      rw [List.infix_cons_iff, not_or]
      exact ⟨hstart rest, ih⟩
  | escaped c rest ih =>
      rw [List.infix_cons_iff, List.infix_cons_iff, not_or, not_or]
      exact ⟨by simp [returnFeed], hstart rest, ih⟩

/-! ## What the reader takes -/

/-- A character of the inside of an escape sequence: a digit, a brace or a plus sign. -/
def isInnerChar (c : Char) : Bool := (hexDigit? c).isSome || c == '{' || c == '\x7d' || c == '+'

/-- The inside of an escape sequence passes between quotes. -/
theorem held_of_isInnerChar (hmark : mark = '"' ∨ mark = '\'') (h : ∀ c ∈ t, isInnerChar c = true) :
    Held mark t := by
  induction t with
  | nil => exact .nil
  | cons c t ih =>
      have hc := h c List.mem_cons_self
      have hother {d : Char} (hd : isInnerChar d = false) : c ≠ d := by
        rintro rfl
        rw [hc] at hd
        cases hd
      refine .plain ?_ (hother (by decide)) (hother (by decide))
        (ih fun d hd => h d (List.mem_cons_of_mem _ hd))
      rcases hmark with rfl | rfl <;> exact hother (by decide)

/-- The digits that are taken stand at the front, and are characters of an escape sequence. -/
theorem exists_digits_of_takeHex {wanted count value n : Nat} {rest : Text}
    (h : takeHex wanted count value t = .ok (n, rest)) :
    ∃ digits, t = digits ++ rest ∧ ∀ c ∈ digits, isInnerChar c = true := by
  induction count generalizing value t with
  | zero =>
      obtain ⟨-, rfl⟩ := Prod.mk.inj (Except.ok.inj h)
      exact ⟨[], rfl, by simp⟩
  | succ count ih =>
      cases t with
      | nil => cases h
      | cons c t =>
          rw [takeHex] at h
          split at h
          next digit hdigit =>
            obtain ⟨digits, rfl, hdigits⟩ := ih h
            refine ⟨c :: digits, rfl, fun d hd => ?_⟩
            rcases List.mem_cons.1 hd with rfl | hd
            · simp [isInnerChar, hdigit]
            · exact hdigits d hd
          next => cases h

/-- The same of the digits behind a backslash, -/
theorem isInnerChar_of_hexValue {value n : Nat} (h : hexValue value t = .ok n) :
    ∀ c ∈ t, isInnerChar c = true := by
  induction t generalizing value with
  | nil => simp
  | cons c t ih =>
      rw [hexValue] at h
      split at h
      next => cases h
      next digit hdigit =>
        split at h
        · cases h
        · intro d hd
          rcases List.mem_cons.1 hd with rfl | hd
          · simp [isInnerChar, hdigit]
          · exact ih h d hd

/-- and of digits in braces, with the braces. -/
theorem isInnerChar_of_bracedValue {n : Nat} (h : bracedValue t = .ok n) :
    ∀ c ∈ t, isInnerChar c = true := by
  unfold bracedValue at h
  split at h
  · cases h
  · cases h
  · intro c hc
    rcases List.mem_cons.1 hc with rfl | hc
    · decide
    · exact isInnerChar_of_hexValue h c hc
  · exact isInnerChar_of_hexValue h

/-- A text is broken at a mark that stands in it. -/
theorem eq_append_of_breakOnce? {head tail : Text} (h : Text.breakOnce? mark t = some (head, tail)) :
    t = head ++ mark :: tail := by
  induction t generalizing head with
  | nil => cases h
  | cons c t ih =>
      rw [Text.breakOnce?] at h
      split at h
      next hc =>
        obtain ⟨rfl, rfl⟩ := Prod.mk.inj (Option.some.inj h)
        rw [hc]
        rfl
      next =>
        obtain ⟨⟨head', tail'⟩, hbreak, heq⟩ := Option.map_eq_some_iff.1 h
        obtain ⟨rfl, rfl⟩ := Prod.mk.inj heq
        rw [ih hbreak]
        rfl

/-- Behind a code unit nothing is taken, or the escape of a low surrogate. -/
theorem exists_held_of_takeUnit (hmark : mark = '"' ∨ mark = '\'') {code : Nat} {c : Char}
    {rest : Text} (h : takeUnit code t = .ok (c, rest)) : ∃ taken, t = taken ++ rest ∧ Held mark taken := by
  unfold takeUnit at h
  split at h
  · split at h
    next more =>
      split at h
      next => cases h
      next low rest' hlow =>
        obtain ⟨digits, rfl, hdigits⟩ := exists_digits_of_takeHex hlow
        split at h
        · split at h
          · cases h
          · obtain ⟨-, rfl⟩ := Prod.mk.inj (Except.ok.inj h)
            exact ⟨'\\' :: 'u' :: digits, rfl, .escaped _ (held_of_isInnerChar hmark hdigits)⟩
        · cases h
    next => cases h
  · split at h
    · cases h
    · obtain ⟨-, rfl⟩ := Prod.mk.inj (Except.ok.inj h)
      exact ⟨[], rfl, .nil⟩

/-- **An escape sequence** is a carriage return with a line feed, or a character and text that is
held behind it. -/
theorem exists_held_of_readEscape (hmark : mark = '"' ∨ mark = '\'') {decoded rest : Text}
    (h : readEscape t = .ok (decoded, rest)) :
    t = returnFeed ++ rest ∨ ∃ c taken, t = c :: (taken ++ rest) ∧ Held mark taken := by
  unfold readEscape at h
  split at h
  · cases h
  · obtain ⟨-, rfl⟩ := Prod.mk.inj (Except.ok.inj h)
    exact .inl rfl
  · split at h
    · cases h
    next hcode =>
      obtain ⟨digits, rfl, hdigits⟩ := exists_digits_of_takeHex hcode
      split at h
      · cases h
      · obtain ⟨-, rfl⟩ := Prod.mk.inj (Except.ok.inj h)
        exact .inr ⟨'x', digits, rfl, held_of_isInnerChar hmark hdigits⟩
  · split at h
    · cases h
    next digits behind hbreak =>
      have hsplit := eq_append_of_breakOnce? hbreak
      split at h
      · cases h
      next hvalue =>
        split at h
        · cases h
        next hunit =>
          obtain ⟨-, rfl⟩ := Prod.mk.inj (Except.ok.inj h)
          obtain ⟨taken, hbehind, htaken⟩ := exists_held_of_takeUnit hmark hunit
          have hbraced : ∀ c ∈ '{' :: (digits ++ ['\x7d']), isInnerChar c = true := by
            have hdigits := isInnerChar_of_bracedValue hvalue
            intro c hc
            simp only [List.mem_cons, List.mem_append, List.not_mem_nil, or_false] at hc
            rcases hc with rfl | hc | rfl
            · decide
            · exact hdigits c hc
            · decide
          refine .inr ⟨'u', '{' :: (digits ++ ['\x7d']) ++ taken, ?_,
            (held_of_isInnerChar hmark hbraced).append htaken⟩
          rw [hsplit, hbehind]
          simp
  · split at h
    · cases h
    next hcode =>
      obtain ⟨digits, rfl, hdigits⟩ := exists_digits_of_takeHex hcode
      split at h
      · cases h
      next hunit =>
        obtain ⟨-, rfl⟩ := Prod.mk.inj (Except.ok.inj h)
        obtain ⟨taken, rfl, htaken⟩ := exists_held_of_takeUnit hmark hunit
        exact .inr ⟨'u', digits ++ taken, by simp,
          (held_of_isInnerChar hmark hdigits).append htaken⟩
  · split at h
    all_goals
      obtain ⟨-, rfl⟩ := Prod.mk.inj (Except.ok.inj h)
      exact .inr ⟨_, [], rfl, .nil⟩

/-- The inside of a string: it is held from end to end, or up to the first line end of a carriage
return and a line feed. -/
inductive Body (mark : Char) : Text → Prop where
  | held {body : Text} (h : Held mark body) : Body mark body
  | broken {front : Text} (h : Held mark front) (rest : Text) :
      Body mark (front ++ '\\' :: (returnFeed ++ rest))

/-- What passes between the quotes may stand before the inside of a string. -/
theorem Body.behind {front body : Text} (hfront : Held mark front) (h : Body mark body) :
    Body mark (front ++ body) := by
  cases h with
  | held h => exact .held (hfront.append h)
  | broken h rest =>
      rw [← List.append_assoc]
      exact .broken (hfront.append h) rest

/-- Where the inside of a string is read, there stands its quote, an escape sequence, or a character
for itself; the reading goes on behind the last two. -/
theorem readBody_cases {total : Nat} {mark : Char} {t value behind : Text}
    (h : readBody total mark t = .ok (value, behind)) :
    (t = mark :: behind ∧ value = []) ∨
    (∃ rest decoded after value', t = '\\' :: rest ∧ readEscape rest = .ok (decoded, after) ∧
      readBody total mark after = .ok (value', behind) ∧ value = decoded ++ value') ∨
    ∃ c rest value', t = c :: rest ∧ c ≠ mark ∧ isLineTerminator c = false ∧ c ≠ '\\' ∧
      readBody total mark rest = .ok (value', behind) ∧ value = c :: value' := by
  cases t with
  | nil =>
      rw [readBody] at h
      cases h
  | cons c t =>
      rw [readBody] at h
      split at h
      next hc =>
        obtain ⟨rfl, rfl⟩ := Prod.mk.inj (Except.ok.inj h)
        exact .inl ⟨by rw [hc], rfl⟩
      next hc =>
      split at h
      next => cases h
      next hline =>
      split at h
      next hback =>
        subst hback
        split at h
        next => cases h
        next hescape =>
          split at h
          next => cases h
          next hread =>
            obtain ⟨rfl, rfl⟩ := Prod.mk.inj (Except.ok.inj h)
            exact .inr (.inl ⟨t, _, _, _, rfl, hescape, hread, rfl⟩)
      next hback =>
        split at h
        next => cases h
        next hread =>
          obtain ⟨rfl, rfl⟩ := Prod.mk.inj (Except.ok.inj h)
          have hplain : isLineTerminator c = false := Bool.eq_false_iff.2 hline
          exact .inr (.inr ⟨c, t, _, rfl, hc, hplain, hback, hread, rfl⟩)

/-- **What the reader takes** is such an inside, up to the first quote behind it. -/
theorem exists_body_of_readBody (hmark : mark = '"' ∨ mark = '\'') {total : Nat}
    {value behind : Text} (h : readBody total mark t = .ok (value, behind)) :
    ∃ body, t = body ++ mark :: behind ∧ Body mark body := by
  induction hlen : t.length using Nat.strongRecOn generalizing t value with
  | ind n ih =>
      rcases readBody_cases h with ⟨rfl, rfl⟩ | ⟨rest, decoded, after, value, rfl, hescape, hread, rfl⟩ |
        ⟨c, rest, value, rfl, hc, hline, hback, hread, rfl⟩
      · exact ⟨[], rfl, .held .nil⟩
      · have hshorter := readEscape_length hescape
        obtain ⟨body, rfl, hbody⟩ :=
          ih after.length (by rw [← hlen, List.length_cons]; omega) hread rfl
        rcases exists_held_of_readEscape hmark hescape with rfl | ⟨d, taken, rfl, htaken⟩
        · refine ⟨'\\' :: (returnFeed ++ body), by simp, ?_⟩
          exact .broken .nil body
        · refine ⟨'\\' :: d :: taken ++ body, by simp, ?_⟩
          exact hbody.behind (.escaped d htaken)
      · obtain ⟨body, rfl, hbody⟩ :=
          ih rest.length (by rw [← hlen, List.length_cons]; omega) hread rfl
        have hfeed : c ≠ '\n' := by
          rintro rfl
          exact absurd hline (by decide)
        exact ⟨c :: body, rfl, hbody.behind (.plain hc hback hfeed .nil)⟩

end Literal

/-! ## Where the scanner ends it -/

namespace Scan

open Literal (Held Body returnFeed)

variable {kind : LiteralKind} {s : State} {line : Nat} {reversed : Text}

/-- The mark of a string is no backslash and no line feed. -/
theorem delimiter_of_isQuoted (h : kind.isQuoted = true) :
    kind.delimiter = '"' ∨ kind.delimiter = '\'' := by
  cases kind <;> simp_all [LiteralKind.isQuoted, LiteralKind.delimiter]

/-- In a string, what is held is read as content: the code shows a blank for each character. -/
theorem State.readBefore_held (hquoted : kind.isQuoted = true) {content : Text}
    (h : Held kind.delimiter content) (hs : s.region = .literal ⟨kind, line, reversed, false, false⟩)
    (next : Option Char) :
    s.readBefore next content =
      ⟨.literal ⟨kind, line, content.reverse ++ reversed, false, false⟩,
        s.line + Text.feeds content, (content.map blankOf).reverse ++ s.codeReversed, s.found⟩ := by
  have hregex : kind ≠ .regex := by rintro rfl; cases hquoted
  induction h generalizing s reversed with
  | nil =>
      rw [State.readBefore, List.reverse_nil, List.nil_append, ← hs]
      rfl
  | @plain c t hmark hback hfeed _ ih =>
      have hstep : s.step c (t.head?.or next) =
          s.emit ' ' (.literal ⟨kind, line, c :: reversed, false, false⟩) := by
        rw [State.step, hs]
        simp [State.readLiteral, State.readContent, blankOf, *]
      rw [State.readBefore, hstep, ih rfl]
      simp [State.emit, Text.feeds, blankOf, hfeed]
  | @escaped c t _ ih =>
      have hfirst : s.step '\\' (some c) =
          s.emit ' ' (.literal ⟨kind, line, '\\' :: reversed, true, false⟩) := by
        rw [State.step, hs]
        simp [State.readLiteral, State.readContent, blankOf]
      have hsecond (s : State) (ahead : Option Char)
          (hs : s.region = .literal ⟨kind, line, '\\' :: reversed, true, false⟩) :
          s.step c ahead =
            s.emit (blankOf c) (.literal ⟨kind, line, c :: '\\' :: reversed, false, false⟩) := by
        rw [State.step, hs]
        simp [State.readLiteral, State.readContent, hregex]
      rw [State.readBefore, List.head?_cons, Option.some_or, hfirst, State.readBefore,
        hsecond _ _ rfl, ih rfl]
      by_cases hc : c = '\n'
      · simp [State.emit, Text.feeds, blankOf, hc, Nat.add_comm, Nat.add_left_comm]
      · simp [State.emit, Text.feeds, blankOf, hc]

/-- The delimiter of a string opens it. -/
theorem State.step_opening (hquoted : kind.isQuoted = true) (s : State) (hs : s.region = .code)
    (next : Option Char) :
    s.step kind.delimiter next = s.emit kind.delimiter (.literal (opened kind s.line)) := by
  rw [State.step, hs]
  cases kind with
  | single => rfl
  | double => rfl
  | template => cases hquoted
  | regex => cases hquoted

/-- **Between two of its delimiters a held text is one literal**, and its content is the text. -/
theorem State.readBefore_enclosed (hquoted : kind.isQuoted = true) {content : Text}
    (h : Held kind.delimiter content) (s : State) (hs : s.region = .code) (next : Option Char) :
    s.readBefore next (kind.delimiter :: content ++ [kind.delimiter]) =
      ⟨.code, s.line + Text.feeds content,
        kind.delimiter :: ((content.map blankOf).reverse ++ kind.delimiter :: s.codeReversed),
        ⟨kind, s.line, content, false, true⟩ :: s.found⟩ := by
  have hmark := delimiter_of_isQuoted hquoted
  have hclose (s : State) (ahead : Option Char) {line : Nat} {reversed : Text}
      (hs : s.region = .literal ⟨kind, line, reversed, false, false⟩) :
      s.step kind.delimiter ahead =
        (s.record ⟨kind, line, reversed.reverse, false, true⟩).emit kind.delimiter .code := by
    rw [State.step, hs]
    rcases hmark with hd | hd <;> simp [State.readLiteral, hd, OpenLiteral.ended]
  rw [List.cons_append, State.readBefore, State.step_opening hquoted s hs, State.readBefore_append,
    State.readBefore_held hquoted h rfl, State.readBefore, hclose _ _ rfl, State.readBefore]
  rcases hmark with hd | hd <;> simp [State.emit, State.record, opened, hd]

/-- The first literal of a script is the first that the scanner recorded. -/
theorem head?_literals {l : ScriptLiteral} (h : [l] <:+ s.found) : s.literals.head? = some l := by
  obtain ⟨later, hfound⟩ := h
  rw [State.literals, ← hfound]
  split <;> simp

/-- A literal that ends with the character behind its content is the first of the script. -/
theorem head?_literals_of_ended {content : Text} (hquoted : kind.isQuoted = true)
    (h : Held kind.delimiter content) {c : Char} {rawNewline terminated : Bool}
    (hend : ∀ (s : State) (reversed : Text) (next : Option Char),
      s.region = .literal ⟨kind, 1, reversed, false, false⟩ → s.step c next =
        (s.record ⟨kind, 1, reversed.reverse, rawNewline, terminated⟩).emit c .code)
    (rest : Text) :
    (strip (kind.delimiter :: (content ++ c :: rest))).literals.head? =
      some ⟨kind, 1, content, rawNewline, terminated⟩ := by
  have hopened : (State.start.emit kind.delimiter (.literal (opened kind 1))).region =
      .literal ⟨kind, 1, [], false, false⟩ := rfl
  have hinside := State.readBefore_held hquoted h hopened (some c)
  have hscan : scan (kind.delimiter :: (content ++ c :: rest)) =
      (((State.start.emit kind.delimiter (.literal (opened kind 1))).readBefore (some c)
        content).step c (rest.head?.or none)).readBefore none rest := by
    rw [scan, State.read, State.readBefore, State.step_opening hquoted _ rfl,
      State.readBefore_append]
    rfl
  refine head?_literals ?_
  rw [hscan]
  refine List.IsSuffix.trans ?_ (State.found_readBefore _ none rest)
  rw [hinside, hend _ _ _ rfl]
  exact ⟨[], by simp [State.emit, State.record, State.start]⟩

end Scan

/-- A script begins with a string of so many bytes: a quote, a body, and the same quote.  Its first
literal is of that kind, on the first line, and holds the body; or it is cut off, and holds the body
up to the first carriage return with a line feed behind it. -/
structure BeginsWithString (script : Text) (bytes : Nat) (kind : LiteralKind) (body behind : Text) :
    Prop where
  quoted : kind.isQuoted = true
  text : script = kind.delimiter :: (body ++ kind.delimiter :: behind)
  bytes : bytes = Text.byteLength (kind.delimiter :: body) + 1
  literal : (¬ Literal.returnFeed <:+: body ∧
      (strip script).literals.head? = some ⟨kind, 1, body, false, true⟩) ∨
    ∃ front rest, body = front ++ Literal.returnFeed ++ rest ∧ ¬ Literal.returnFeed <:+: front ∧
      (strip script).literals.head? = some ⟨kind, 1, front ++ ['\r'], true, false⟩

/-- **The scanner ends a string where the reader does**, unless a line end of a carriage return and
a line feed comes first: there it cuts the string off. -/
theorem beginsWithString_of_read? {src value : Text} {used : Nat}
    (h : Literal.read? src = .ok (value, used)) :
    ∃ kind body behind, BeginsWithString src used kind body behind := by
  obtain ⟨kind, t, behind, hquoted, rfl, hread, hused⟩ :
      ∃ (kind : LiteralKind) (t behind : Text), kind.isQuoted = true ∧ src = kind.delimiter :: t ∧
        Literal.readBody (Text.byteLength src) kind.delimiter t = .ok (value, behind) ∧
          used = Text.byteLength src - Text.byteLength behind := by
    rw [Literal.read?] at h
    split at h
    next => cases h
    next value' behind hsplit =>
      obtain ⟨rfl, rfl⟩ := Prod.mk.inj (Except.ok.inj h)
      cases src with
      | nil => cases hsplit
      | cons c t =>
          rw [Literal.split?] at hsplit
          split at hsplit
          next hc =>
            rcases hc with rfl | rfl
            · exact ⟨.double, t, behind, rfl, rfl, hsplit, rfl⟩
            · exact ⟨.single, t, behind, rfl, rfl, hsplit, rfl⟩
          next => cases hsplit
  have hmark := Scan.delimiter_of_isQuoted hquoted
  obtain ⟨body, rfl, hbody⟩ := Literal.exists_body_of_readBody hmark hread
  refine ⟨kind, body, behind, ⟨hquoted, rfl, ?_, ?_⟩⟩
  · have hsize : kind.delimiter.utf8Size = 1 := by rcases hmark with h | h <;> rw [h] <;> rfl
    rw [hused]
    simp only [Text.byteLength, Text.byteLength_append, hsize]
    omega
  · cases hbody with
    | held hheld =>
        refine .inl ⟨hheld.no_returnFeed, Scan.head?_literals_of_ended hquoted hheld ?_ behind⟩
        intro s reversed next hs
        rw [Scan.State.step, hs]
        rcases hmark with hd | hd <;> simp [Scan.State.readLiteral, hd, Scan.OpenLiteral.ended]
    | @broken front hheld rest =>
        have hreturn : Literal.Held kind.delimiter (front ++ ['\\', '\r']) :=
          hheld.append (.escaped '\r' .nil)
        refine .inr ⟨front ++ ['\\'], rest, by simp, ?_, ?_⟩
        · intro hpair
          refine hreturn.no_returnFeed (hpair.trans ⟨[], ['\r'], by simp⟩)
        · have hregex : kind ≠ .regex := by rintro rfl; cases hquoted
          have hcut (s : Scan.State) (reversed : Text) (next : Option Char)
              (hs : s.region = .literal ⟨kind, 1, reversed, false, false⟩) : s.step '\n' next =
                (s.record ⟨kind, 1, reversed.reverse, true, false⟩).emit '\n' .code := by
            rw [Scan.State.step, hs]
            rcases hmark with hd | hd <;>
              simp [Scan.State.readLiteral, hregex, hd, hquoted, Scan.OpenLiteral.ended]
          have hfirst := Scan.head?_literals_of_ended hquoted hreturn hcut
            (rest ++ kind.delimiter :: behind)
          simpa [Literal.returnFeed] using hfirst

/-- An escaped quote, a pair of surrogates and a line end of one character in a string, and another
quote behind it. -/
theorem beginsWithString_of_read?_surrogates :
    let src : Text := "\"\\\"\\uD83D\\uDE00\\\n\"'".toList
    Literal.read? src = .ok (['"', Char.ofNat 0x1F600], 18) ∧
      ∃ kind body behind, BeginsWithString src 18 kind body behind := by
  intro src
  have hread : Literal.read? src = .ok (['"', Char.ofNat 0x1F600], 18) := by decide +kernel
  exact ⟨hread, beginsWithString_of_read? hread⟩

/-- A string over two lines that end in a carriage return and a line feed is read whole, but its
literal is cut off. -/
theorem cut_off_at_return_and_feed :
    let src : Text := ['"', '\\', '\r', '\n', '"']
    Literal.read? src = .ok ([], 5) ∧
      (strip src).literals.head? = some ⟨.double, 1, ['\\', '\r'], true, false⟩ := by
  decide +kernel

end Scriptwright
