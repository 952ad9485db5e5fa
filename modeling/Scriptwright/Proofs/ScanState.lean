import Mathlib.Tactic.SplitIfs
import Scriptwright.Script.Scan

/-!
# What the scanner's next step depends on

A scanner state remembers all code and all literals so far, but its next step
looks at little of that: the kind of place it stands at (`Shape`, a region
without the line and the text of its literal), and whether a slash would begin a
regular expression here.  The latter is a question about the whole code, and
`SlashContext` is the part of the code that answers it for good: it can be kept
up to date character by character (`regexAllowed_eq`).

Two states that agree in both are `Similar`.  **Similar states that read the same
text stay similar, emit the same code and end the same literals**
(`Similar.readBefore`), whatever was read before.  This is what lets a statement
about a text scanned alone be used where the text stands in a script.
-/

namespace Scriptwright

/-- The code points of the blanks. -/
def blankCodes : List Nat :=
  [9, 10, 11, 12, 13, 0x20, 0x85, 0xA0, 0x1680, 0x2000, 0x2001, 0x2002, 0x2003, 0x2004, 0x2005,
    0x2006, 0x2007, 0x2008, 0x2009, 0x200A, 0x2028, 0x2029, 0x202F, 0x205F, 0x3000]

/-- Every blank is one of these. -/
theorem toNat_mem_blankCodes {c : Char} (h : isBlank c = true) : c.toNat ∈ blankCodes := by
  simp only [isBlank, Bool.or_eq_true, Bool.and_eq_true, decide_eq_true_eq, beq_iff_eq] at h
  simp only [blankCodes, List.mem_cons, List.not_mem_nil, or_false]
  omega

/-- What holds of these holds of every blank. -/
theorem of_isBlank {P : Char → Prop} (hcodes : ∀ n ∈ blankCodes, P (Char.ofNat n)) {c : Char}
    (h : isBlank c = true) : P c := by
  have hc := hcodes _ (toNat_mem_blankCodes h)
  rwa [Char.ofNat_toNat] at hc

/-- No blank belongs to a name. -/
theorem isNameChar_of_isBlank {c : Char} (h : isBlank c = true) : isNameChar c = false := by
  have hcodes : ∀ n ∈ blankCodes, isNameChar (Char.ofNat n) = false := by decide +kernel
  exact of_isBlank (P := fun c => isNameChar c = false) hcodes h

namespace Scan

/-- What code tells about a slash behind it.  A mark is a character that is neither a sign nor part
of a name, or the beginning; signs and words remember whether they reach up to here. -/
inductive SlashContext where
  | mark (opens : Bool)
  | sign (c : Char) (doubled adjacent : Bool)
  | word (reversed : Text) (adjacent : Bool)
deriving DecidableEq

namespace SlashContext

/-- Whether a slash here begins a regular expression. -/
def opens : SlashContext → Bool
  | mark b => b
  | sign _ doubled _ => !doubled
  | word reversed _ => regexKeywords.contains reversed.reverse

/-- After a blank. -/
def settle : SlashContext → SlashContext
  | mark b => mark b
  | sign c doubled _ => sign c doubled false
  | word reversed _ => word reversed false

/-- Whether a given sign stands right here. -/
def endsIn (c : Char) : SlashContext → Bool
  | sign d _ true => d == c
  | _ => false

/-- The word that reaches up to here, its last character first. -/
def openWord : SlashContext → Text
  | word reversed true => reversed
  | _ => []

/-- After one more character of code. -/
def push (k : SlashContext) (c : Char) : SlashContext :=
  if isBlank c then k.settle
  else if c = '+' ∨ c = '-' then sign c (k.endsIn c) true
  else if isNameChar c then word (c :: k.openWord) true
  else mark (regexPreceders.contains c)

/-- Blanks do not decide whether a regular expression can begin. -/
@[simp] theorem opens_settle (k : SlashContext) : k.settle.opens = k.opens := by cases k <;> rfl

/-- Of several blanks only the first matters. -/
@[simp] theorem settle_settle (k : SlashContext) : k.settle.settle = k.settle := by cases k <;> rfl

/-- A blank parts what stands before it from what follows. -/
theorem push_blank {k : SlashContext} {c : Char} (h : isBlank c = true) : k.push c = k.settle := by
  simp [push, h]

end SlashContext

/-- The context after some code, given with the last character first. -/
def slashContext : Text → SlashContext
  | [] => .mark true
  | c :: before => (slashContext before).push c

/-- Codes with one context have one context behind anything that is emitted. -/
theorem slashContext_append_congr {a b : Text} (h : slashContext a = slashContext b) (out : Text) :
    slashContext (out ++ a) = slashContext (out ++ b) := by
  induction out with
  | nil => exact h
  | cons c out ih => simp only [List.cons_append, slashContext, ih]

/-- The word that reaches up to here is made of the last characters that belong to names. -/
theorem openWord_slashContext (code : Text) :
    (slashContext code).openWord = code.takeWhile isNameChar := by
  induction code with
  | nil => rfl
  | cons c before ih =>
      rw [slashContext, SlashContext.push]
      split
      next hblank =>
        rw [List.takeWhile_cons, isNameChar_of_isBlank hblank]
        cases slashContext before <;> rfl
      split
      next hsign =>
        have hname : isNameChar c = false := by rcases hsign with rfl | rfl <;> decide
        rw [List.takeWhile_cons, hname]
        rfl
      split
      next hname => rw [List.takeWhile_cons, hname, ← ih]; rfl
      next hname => rw [List.takeWhile_cons, if_neg hname]; rfl

/-- A sign stands right here if it is the last character. -/
theorem endsIn_slashContext {c : Char} (hc : c = '+' ∨ c = '-') (code : Text) :
    (slashContext code).endsIn c = (code.head? == some c) := by
  have hblank : isBlank c = false := by rcases hc with rfl | rfl <;> decide
  have hname : isNameChar c = false := by rcases hc with rfl | rfl <;> decide
  cases code with
  | nil => rfl
  | cons d before =>
      have other (hne : d ≠ c) : false = ((d :: before).head? == some c) := by simp [hne]
      rw [slashContext, SlashContext.push]
      split
      next hd =>
        have hne : d ≠ c := by rintro rfl; rw [hblank] at hd; cases hd
        rw [← other hne]
        cases slashContext before <;> rfl
      split
      next => simp [SlashContext.endsIn]
      split
      next hd =>
        have hne : d ≠ c := by rintro rfl; rw [hname] at hd; cases hd
        rw [← other hne]
        rfl
      next hsign _ =>
        have hne : d ≠ c := by rintro rfl; exact hsign hc
        rw [← other hne]
        rfl

/-- **The context answers for the whole code.** -/
theorem regexAllowed_eq (code : Text) : regexAllowed code = (slashContext code).opens := by
  induction code with
  | nil => rfl
  | cons c before ih =>
      by_cases hblank : isBlank c = true
      · rw [slashContext, SlashContext.push_blank hblank, SlashContext.opens_settle, ← ih]
        simp [regexAllowed, hblank]
      have hblank' : isBlank c = false := by simpa using hblank
      have hdrop : (c :: before).dropWhile isBlank = c :: before := by simp [hblank']
      rw [regexAllowed, hdrop, slashContext, SlashContext.push, if_neg hblank]
      by_cases hsign : c = '+' ∨ c = '-'
      · simp only [hsign, if_true, SlashContext.opens, endsIn_slashContext hsign]
        rfl
      · simp only [hsign, if_false]
        by_cases hname : isNameChar c = true
        · have hnone : regexPreceders.any isNameChar = false := by decide +kernel
          have hprec : c ∉ regexPreceders := fun hmem => List.any_eq_false.1 hnone c hmem hname
          simp [hname, hprec, SlashContext.opens, openWord_slashContext]
        · simp [hname, SlashContext.opens]

/-- The kind of place a scanner stands at: a region without the line and the text of its literal. -/
inductive Shape where
  | code
  | literal (kind : LiteralKind) (escaped inClass : Bool)
  | lineComment
  | blockOpening
  | blockComment
  | blockClosing
deriving DecidableEq

/-- The shape of a region. -/
def Region.shape : Region → Shape
  | .code => .code
  | .literal l => .literal l.kind l.escaped l.inClass
  | .lineComment => .lineComment
  | .blockOpening => .blockOpening
  | .blockComment => .blockComment
  | .blockClosing => .blockClosing

/-- Only code has the shape of code. -/
theorem Region.eq_code {r : Region} (h : r.shape = .code) : r = .code := by
  cases r <;> simp [Region.shape] at h ⊢

/-- Only a comment has the shape of a comment. -/
theorem Region.eq_blockComment {r : Region} (h : r.shape = .blockComment) : r = .blockComment := by
  cases r <;> simp [Region.shape] at h ⊢

/-- A region with the shape of a literal is a literal, of this kind and in this state. -/
theorem Region.eq_literal {r : Region} {kind : LiteralKind} {escaped inClass : Bool}
    (h : r.shape = .literal kind escaped inClass) :
    ∃ line reversed, r = .literal ⟨kind, line, reversed, escaped, inClass⟩ := by
  cases r with
  | literal l =>
      obtain ⟨kind', line, reversed, escaped', inClass'⟩ := l
      simp only [Region.shape, Shape.literal.injEq] at h
      obtain ⟨rfl, rfl, rfl⟩ := h
      exact ⟨line, reversed, rfl⟩
  | _ => simp [Region.shape] at h

/-- How a literal ended. -/
def ending (l : ScriptLiteral) : LiteralKind × Bool × Bool := (l.kind, l.rawNewline, l.terminated)

/-- Two states whose next step is decided by the same facts. -/
structure Similar (s t : State) : Prop where
  shape : s.region.shape = t.region.shape
  context : slashContext s.codeReversed = slashContext t.codeReversed

/-- Two runs, from `s` to `s'` and from `t` to `t'`, that did the same: they end at the same kind of
place, emitted the same code, and ended literals in the same ways. -/
structure InStep (s t s' t' : State) : Prop where
  shape : s'.region.shape = t'.region.shape
  emitted : ∃ out, s'.codeReversed = out ++ s.codeReversed ∧ t'.codeReversed = out ++ t.codeReversed
  recorded : ∃ new new', s'.found = new ++ s.found ∧ t'.found = new' ++ t.found ∧
    new.map ending = new'.map ending

/-- Every state is decided by its own facts. -/
theorem Similar.refl (s : State) : Similar s s := ⟨rfl, rfl⟩

/-- Either state may be named first. -/
theorem Similar.symm {s t : State} (h : Similar s t) : Similar t s := ⟨h.shape.symm, h.context.symm⟩

/-- Runs that do the same from similar states lead to similar states. -/
theorem InStep.similar {s t s' t' : State} (h : InStep s t s' t')
    (hcontext : slashContext s.codeReversed = slashContext t.codeReversed) : Similar s' t' := by
  obtain ⟨out, hs, ht⟩ := h.emitted
  refine ⟨h.shape, ?_⟩
  rw [hs, ht]
  exact slashContext_append_congr hcontext out

/-- **Runs that did the same** may be carried on. -/
theorem InStep.trans {s t s' t' s'' t'' : State} (h : InStep s t s' t')
    (h' : InStep s' t' s'' t'') : InStep s t s'' t'' := by
  obtain ⟨out, hs, ht⟩ := h.emitted
  obtain ⟨out', hs', ht'⟩ := h'.emitted
  obtain ⟨new, more, hn, hm, he⟩ := h.recorded
  obtain ⟨new', more', hn', hm', he'⟩ := h'.recorded
  refine ⟨h'.shape, ⟨out' ++ out, ?_, ?_⟩, ⟨new' ++ new, more' ++ more, ?_, ?_, ?_⟩⟩
  · rw [hs', hs, List.append_assoc]
  · rw [ht', ht, List.append_assoc]
  · rw [hn', hn, List.append_assoc]
  · rw [hm', hm, List.append_assoc]
  · rw [List.map_append, List.map_append, he, he']

/-- Both emit one character. -/
theorem InStep.emit (s t : State) (c : Char) {r r' : Region} (h : r.shape = r'.shape) :
    InStep s t (s.emit c r) (t.emit c r') :=
  ⟨h, ⟨[c], rfl, rfl⟩, ⟨[], [], rfl, rfl, rfl⟩⟩

/-- Both end a literal and emit one character. -/
theorem InStep.record (s t : State) (c : Char) {r r' : Region} {l l' : ScriptLiteral}
    (h : r.shape = r'.shape) (hl : ending l = ending l') :
    InStep s t ((s.record l).emit c r) ((t.record l').emit c r') :=
  ⟨h, ⟨[c], rfl, rfl⟩, ⟨[l], [l'], rfl, rfl, by simp [hl]⟩⟩

/-- A character of a literal does the same in both, if the literals are in the same state. -/
theorem InStep.readLiteral (s t : State) {l l' : OpenLiteral}
    (h : (Region.literal l).shape = (Region.literal l').shape) (c : Char) :
    InStep s t (s.readLiteral l c) (t.readLiteral l' c) := by
  obtain ⟨kind, line, reversed, escaped, inClass⟩ := l
  obtain ⟨kind', line', reversed', escaped', inClass'⟩ := l'
  simp only [Region.shape, Shape.literal.injEq] at h
  obtain ⟨rfl, rfl, rfl⟩ := h
  simp only [State.readLiteral]
  split_ifs
  · exact .record s t c rfl rfl
  · exact .emit s t _ rfl
  · exact .emit s t _ rfl
  · exact .record s t c rfl rfl
  · exact .record s t c rfl rfl
  · exact .emit s t _ rfl

/-- **One step.**  What a step does depends on the shape and the context alone. -/
theorem Similar.step {s t : State} (h : Similar s t) (c : Char) (next : Option Char) :
    InStep s t (s.step c next) (t.step c next) := by
  have hshape := h.shape
  have hopens : regexAllowed s.codeReversed = regexAllowed t.codeReversed := by
    rw [regexAllowed_eq, regexAllowed_eq, h.context]
  rw [State.step, State.step]
  cases hs : s.region <;> cases ht : t.region <;> rw [hs, ht] at hshape <;>
    simp only [Region.shape, reduceCtorEq] at hshape
  case code.code =>
    simp only [State.readCode, hopens]
    split_ifs <;> exact .emit s t _ rfl
  case literal.literal l l' => exact .readLiteral s t hshape c
  case lineComment.lineComment => split_ifs <;> exact .emit s t _ rfl
  case blockOpening.blockOpening => exact .emit s t _ rfl
  case blockComment.blockComment =>
    dsimp only
    split_ifs <;> exact .emit s t _ rfl
  case blockClosing.blockClosing => exact .emit s t _ rfl

/-- **A whole text.**  Similar states do the same with it and are similar after it. -/
theorem Similar.readBefore {s t : State} (h : Similar s t) (next : Option Char) (u : Text) :
    InStep s t (s.readBefore next u) (t.readBefore next u) := by
  induction u generalizing s t with
  | nil => exact ⟨h.shape, ⟨[], rfl, rfl⟩, ⟨[], [], rfl, rfl, rfl⟩⟩
  | cons c u ih =>
      have hstep := h.step c (u.head?.or next)
      exact hstep.trans (ih (hstep.similar h.context))

/-- Literals once recorded stay. -/
theorem State.found_readBefore (s : State) (next : Option Char) (u : Text) :
    s.found <:+ (s.readBefore next u).found := by
  obtain ⟨new, -, hnew, -, -⟩ := ((Similar.refl s).readBefore next u).recorded
  exact ⟨new, hnew.symm⟩

/-- A character that can stand behind another without making a comment of the two. -/
def Ordinary (next : Option Char) : Prop := next ≠ some '/' ∧ next ≠ some '*'

/-- Of the character behind only a slash and a star matter. -/
theorem State.step_ordinary (s : State) (c : Char) {next : Option Char} (h : Ordinary next) :
    s.step c next = s.step c none := by
  simp only [State.step, State.readCode, h.1, h.2, if_false, and_false, reduceCtorEq]

/-- Before an ordinary character a text is read as if nothing followed. -/
theorem State.readBefore_ordinary (s : State) (u : Text) {next : Option Char} (h : Ordinary next) :
    s.readBefore next u = s.read u := by
  rw [State.read]
  induction u generalizing s with
  | nil => rfl
  | cons c u ih =>
      rw [State.readBefore, State.readBefore]
      cases u with
      | nil =>
          have hstep : s.step c next = s.step c none := s.step_ordinary c h
          simpa [State.readBefore] using hstep
      | cons d u => exact ih _

/-- Before a line feed it does not matter what stands behind it. -/
theorem State.step_feed (s : State) (next : Option Char) : s.step '\n' next = s.step '\n' none := by
  simp [State.step, State.readCode]

/-- A text that is empty or ends in a line feed. -/
def EndsLine (t : Text) : Prop := t = [] ∨ ∃ u, t = u ++ ['\n']

/-- Texts that end in line feeds, one after the other, do so. -/
theorem EndsLine.append {t u : Text} (ht : EndsLine t) (hu : EndsLine u) : EndsLine (t ++ u) := by
  rcases hu with rfl | ⟨v, rfl⟩
  · rwa [List.append_nil]
  · exact .inr ⟨t ++ v, by simp⟩

/-- A text that ends its line is read without a look at what follows. -/
theorem State.readBefore_of_endsLine (s : State) {t : Text} (h : EndsLine t) (next : Option Char) :
    s.readBefore next t = s.read t := by
  rcases h with rfl | ⟨u, rfl⟩
  · rfl
  · rw [State.read, State.readBefore_append, State.readBefore_append]
    exact State.step_feed _ next

/-- After a text that ends its line, the rest is read on its own. -/
theorem State.read_append (s : State) {t : Text} (h : EndsLine t) (u : Text) :
    s.read (t ++ u) = (s.read t).read u := by
  rw [State.read, State.readBefore_append, State.readBefore_of_endsLine s h]
  rfl

end Scan

end Scriptwright
