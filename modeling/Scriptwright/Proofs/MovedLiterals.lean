import Mathlib.Data.List.Forall2
import Scriptwright.Proofs.ScriptStructure

/-!
# Literals in code that is moved in

A block is put into a script line by line, each line moved in by two blanks, and
the lines of a literal are lines like any other.  A literal on one line stays as
it is.  A literal that goes over a line end does not: the blanks before its later
lines are part of it, as are the blanks that a blank line loses and the carriage
return that a line end loses (`Layout.movedIn`).

Two scans are `Abreast` if one has read a text and the other the text moved in,
and the literals they recorded are the same but for that.  What they know of an
open literal depends on how much of a line has been read: `MovesTo` where a line
begins, `OnLine` within a line, `AtLineEnd` behind it.  `Abreast.indent` leads them
through a text.

So **a block's literals come into the script with their kinds, each content moved
in, once in a plain block and twice in a guarded one**
(`Builder.movesLiterals_build`), and they say what they said exactly if none of
them goes over a line end.
-/

namespace Scriptwright

namespace Layout

open Text (dropReturn)

/-- What becomes of the content of a literal when the text it stands in is moved in. -/
def movedIn (content : Text) : Text := ((indent ('"' :: content ++ ['"'])).drop 3).dropLast

/-- A beginning of a literal's content, up to a line feed, becomes `moved` when it is moved in,
whatever stands behind it. -/
def MovesTo (front moved : Text) : Prop :=
  ∀ rest : Text, rest ≠ [] →
    indent ('"' :: front ++ rest) = ' ' :: ' ' :: '"' :: moved ++ indent rest

/-- Blanks behind blanks are blanks. -/
theorem allBlank_append (t u : Text) :
    Text.allBlank (t ++ u) = (Text.allBlank t && Text.allBlank u) := List.all_append

/-- A line with something on it gets two blanks. -/
theorem indentLine_of_mark {line : Text} (h : Text.allBlank line = false) :
    indentLine line = ' ' :: ' ' :: line := by rw [indentLine, h]; rfl

/-- So does a line that begins with a quote, whatever stands behind the quote. -/
theorem indentLine_quote (line : Text) : indentLine ('"' :: line) = ' ' :: ' ' :: '"' :: line :=
  indentLine_of_mark rfl

/-- The return at the end of a line stands behind every other character of it. -/
theorem dropReturn_append_cons {c : Char} (hc : c ≠ '\r') (front line : Text) :
    dropReturn (front ++ c :: line) = front ++ c :: dropReturn line := by
  cases line with
  | nil => simp [dropReturn, hc]
  | cons d line =>
      have hlast : (front ++ c :: d :: line).getLast? = (d :: line).getLast? := by
        rw [List.append_cons, List.getLast?_append,
          List.getLast?_eq_some_getLast (List.cons_ne_nil d line)]
        rfl
      rw [dropReturn, dropReturn, hlast]
      split
      · rw [List.dropLast_append_of_ne_nil (List.cons_ne_nil _ _)]
        rfl
      · rfl

/-- The line on which a literal began. -/
theorem movesTo_first {line : Text} (hline : '\n' ∉ line) :
    MovesTo (line ++ ['\n']) (dropReturn line ++ ['\n']) := by
  intro rest hrest
  have hquote : '\n' ∉ '"' :: line := by simp [hline]
  have hdrop : dropReturn ('"' :: line) = '"' :: dropReturn line :=
    dropReturn_append_cons (by decide) [] line
  have hsplit : '"' :: (line ++ ['\n']) ++ rest = ('"' :: line) ++ '\n' :: rest := by simp
  rw [hsplit, indent_append_feed hquote hrest, hdrop, indentLine_quote]
  simp

/-- A whole line of a literal. -/
theorem MovesTo.line {front moved : Text} (h : MovesTo front moved) {line : Text}
    (hline : '\n' ∉ line) :
    MovesTo (front ++ line ++ ['\n']) (moved ++ indentLine (dropReturn line) ++ ['\n']) := by
  intro rest hrest
  have hsplit : '"' :: (front ++ line ++ ['\n']) ++ rest = '"' :: front ++ (line ++ '\n' :: rest) := by
    simp
  have hbelow : line ++ '\n' :: rest ≠ [] := by simp
  rw [hsplit, h _ hbelow, indent_append_feed hline hrest]
  simp

/-- The last line of a literal. -/
theorem MovesTo.movedIn {front moved : Text} (h : MovesTo front moved) {line : Text}
    (hline : '\n' ∉ line) : Layout.movedIn (front ++ line) = moved ++ ' ' :: ' ' :: line := by
  have hquote : '\n' ∉ line ++ ['"'] := by simp [hline]
  have hmark : Text.allBlank (line ++ ['"']) = false := by
    rw [allBlank_append, Bool.and_eq_false_iff]
    exact .inr rfl
  have hmoved : indent ('"' :: (front ++ line) ++ ['"']) =
      ' ' :: ' ' :: '"' :: (moved ++ ' ' :: ' ' :: line) ++ ['"'] := by
    have hall := h (line ++ ['"']) (by simp)
    rw [indent_of_no_feed hquote, indentLine_of_mark hmark] at hall
    simpa using hall
  rw [Layout.movedIn, hmoved]
  exact List.dropLast_concat

/-- A literal on one line stays as it is. -/
theorem movedIn_of_no_feed {content : Text} (h : '\n' ∉ content) : movedIn content = content := by
  have hline : '\n' ∉ '"' :: content ++ ['"'] := by simp [h]
  rw [movedIn, indent_of_no_feed hline, List.cons_append, indentLine_quote]
  simp

/-- The part of a text behind its last line feed. -/
def lastLine (t : Text) : Text := (t.reverse.takeWhile (· ≠ '\n')).reverse

/-- The last line stands behind the last line feed. -/
theorem lastLine_append_feed (front : Text) {line : Text} (h : '\n' ∉ line) :
    lastLine (front ++ '\n' :: line) = line := by
  have hall : ∀ c ∈ line.reverse, decide (c ≠ '\n') = true := by
    intro c hc
    have hne : c ≠ '\n' := fun heq => h (heq ▸ List.mem_reverse.1 hc)
    simpa using hne
  have hreverse : (front ++ '\n' :: line).reverse = line.reverse ++ '\n' :: front.reverse := by simp
  rw [lastLine, hreverse, List.takeWhile_append_of_pos hall]
  simp

/-- A text with a line feed is moved in up to its last line. -/
theorem exists_movesTo {t : Text} (h : '\n' ∈ t) :
    ∃ front moved line, t = front ++ ['\n'] ++ line ∧ '\n' ∉ line ∧
      MovesTo (front ++ ['\n']) (moved ++ ['\n']) := by
  have hlater (u : Text) : ∀ front moved, MovesTo (front ++ ['\n']) (moved ++ ['\n']) →
      ∃ front' moved' line, front ++ ['\n'] ++ u = front' ++ ['\n'] ++ line ∧ '\n' ∉ line ∧
        MovesTo (front' ++ ['\n']) (moved' ++ ['\n']) := by
    induction hlen : u.length using Nat.strongRecOn generalizing u with
    | ind n ih =>
        intro front moved hmoves
        rcases Text.eq_line_or_append u with hno | ⟨line, rest, rfl, hline⟩
        · exact ⟨front, moved, u, rfl, hno, hmoves⟩
        · have hshorter : rest.length < n := by
            rw [← hlen, List.length_append, List.length_cons]
            omega
          obtain ⟨front', moved', last, heq, hlast, hmoves'⟩ :=
            ih _ hshorter rest rfl _ _ (hmoves.line hline)
          exact ⟨front', moved', last, by rw [← heq]; simp, hlast, hmoves'⟩
  rcases Text.eq_line_or_append t with hno | ⟨line, rest, rfl, hline⟩
  · exact absurd h hno
  · obtain ⟨front, moved, last, heq, hlast, hmoves⟩ := hlater rest _ _ (movesTo_first hline)
    exact ⟨front, moved, last, by rw [← heq]; simp, hlast, hmoves⟩

/-- The last line of a literal that goes over a line end is moved in. -/
theorem lastLine_movedIn {content : Text} (h : '\n' ∈ content) :
    '\n' ∈ movedIn content ∧ lastLine (movedIn content) = ' ' :: ' ' :: lastLine content := by
  obtain ⟨front, moved, line, rfl, hline, hmoves⟩ := exists_movesTo h
  have hblanks : '\n' ∉ ' ' :: ' ' :: line := by simp [hline]
  have hlast := lastLine_append_feed front hline
  have hlast' := lastLine_append_feed moved hblanks
  rw [hmoves.movedIn hline, List.append_assoc, List.append_assoc]
  refine ⟨by simp, ?_⟩
  rw [List.cons_append, List.nil_append, List.cons_append, List.nil_append, hlast, hlast']

/-- **Moving a literal in changes it exactly if it goes over a line end.** -/
theorem movedIn_eq_self_iff {content : Text} : movedIn content = content ↔ '\n' ∉ content := by
  refine ⟨fun h hmem => ?_, movedIn_of_no_feed⟩
  have hlength := congrArg List.length (h ▸ (lastLine_movedIn hmem).2)
  simp only [List.length_cons] at hlength
  omega

/-- Moving a content in twice keeps it exactly if moving it in once does: if it has no line feed. -/
theorem movedIn_movedIn_eq_self_iff {content : Text} :
    movedIn (movedIn content) = content ↔ '\n' ∉ content := by
  refine ⟨fun h hmem => ?_, fun h => by rw [movedIn_of_no_feed h, movedIn_of_no_feed h]⟩
  obtain ⟨hmem', honce⟩ := lastLine_movedIn hmem
  have htwice := (lastLine_movedIn hmem').2
  rw [h, honce] at htwice
  have hlength := congrArg List.length htwice
  simp only [List.length_cons] at hlength
  omega

end Layout

namespace Scan

open Layout (MovesTo movedIn indent indentLine indentLine_of_mark)
open Text (dropReturn)

/-- States that are similar to the same state are similar. -/
theorem Similar.trans {s t u : State} (h : Similar s t) (h' : Similar t u) : Similar s u :=
  ⟨h.shape.trans h'.shape, h.context.trans h'.context⟩

/-- What was read of an open literal. -/
def OpenLiteral.soFar (l : OpenLiteral) : Text := l.reversed.reverse

/-! ## Text in which no literal begins or ends -/

/-- A run from `s` to `t` over a text in which no literal began or ended. -/
structure Quiet (text : Text) (s t : State) : Prop where
  found : t.found = s.found
  inside : ∀ l, t.region = .literal l →
    ∃ l', s.region = .literal l' ∧ l.soFar = l'.soFar ++ text

/-- Over no text nothing happens. -/
theorem Quiet.refl (s : State) : Quiet [] s s := ⟨rfl, fun l hl => ⟨l, hl, by simp⟩⟩

/-- What is quiet may be put together. -/
theorem Quiet.trans {text text' : Text} {s t u : State} (h : Quiet text s t)
    (h' : Quiet text' t u) : Quiet (text ++ text') s u := by
  refine ⟨h'.found.trans h.found, fun l hl => ?_⟩
  obtain ⟨l', hl', hread'⟩ := h'.inside l hl
  obtain ⟨l'', hl'', hread⟩ := h.inside l' hl'
  exact ⟨l'', hl'', by rw [hread', hread, List.append_assoc]⟩

/-- Emitting a character outside literals. -/
theorem quiet_emit (s : State) (c shown : Char) {r : Region} (hr : ∀ l, r ≠ .literal l) :
    Quiet [c] s (s.emit shown r) := ⟨rfl, fun l hl => absurd hl (hr l)⟩

/-- A character of the content of a literal. -/
theorem quiet_readContent {s : State} {l : OpenLiteral} (hregion : s.region = .literal l) (c : Char)
    (escaped : Bool) : Quiet [c] s (s.readContent l c escaped) := by
  refine ⟨rfl, ?_⟩
  rintro _ ⟨⟩
  exact ⟨l, hregion, List.reverse_cons⟩

/-- A carriage return. -/
theorem quiet_return (s : State) (next : Option Char) : Quiet ['\r'] s (s.step '\r' next) := by
  rw [State.step]
  cases hregion : s.region with
  | code => exact quiet_emit s _ _ (by simp)
  | literal l =>
      dsimp only
      rw [State.readLiteral_return]
      exact quiet_readContent hregion _ _
  | lineComment => exact quiet_emit s _ _ (by simp)
  | blockOpening => exact quiet_emit s _ _ (by simp)
  | blockComment => exact quiet_emit s _ _ (by simp)
  | blockClosing => exact quiet_emit s _ _ (by simp)

/-- A line feed that cuts no literal off. -/
theorem quiet_feed {s : State} {next : Option Char}
    (hends : ∀ l ∈ (s.step '\n' next).found, l.terminated = true) :
    Quiet ['\n'] s (s.step '\n' next) := by
  rw [State.step] at hends ⊢
  cases hregion : s.region with
  | code => exact quiet_emit s _ _ (by simp)
  | literal l =>
      rw [hregion] at hends
      dsimp only at hends ⊢
      have hdelimiter : '\n' ≠ l.kind.delimiter := delimiter_ne_of_isBlank (by decide) _
      rw [State.readLiteral] at hends ⊢
      split_ifs at hends ⊢ with hcut hescaped hslash hclose hfeed
      · exact absurd (hends _ List.mem_cons_self) (by simp [OpenLiteral.ended])
      · exact quiet_readContent hregion _ _
      · exact quiet_readContent hregion _ _
      · exact absurd hclose.1 hdelimiter
      · exact absurd (hends _ List.mem_cons_self) (by simp [OpenLiteral.ended])
      · exact quiet_readContent hregion _ _
  | lineComment => exact quiet_emit s _ _ (by simp)
  | blockOpening => exact quiet_emit s _ _ (by simp)
  | blockComment => exact quiet_emit s _ _ (by simp)
  | blockClosing => exact quiet_emit s _ _ (by simp)

/-- Blanks where a line begins. -/
theorem AtLineStart.quiet_blanks {s : State} (h : AtLineStart s) {u : Text}
    (hblank : ∀ c ∈ u, isBlank c) (hfeed : '\n' ∉ u) (next : Option Char) :
    Quiet u s (s.readBefore next u) := by
  have hone {s : State} (h : AtLineStart s) {c : Char} (hc : isBlank c = true) (hne : c ≠ '\n')
      (next : Option Char) : Quiet [c] s (s.step c next) := by
    obtain ⟨hdouble, hsingle, hback, hslash, hstar, hescape⟩ := blank_ne hc
    rw [State.step]
    rcases h.place with hplace | hplace | ⟨kind, inClass, hkind, hplace⟩
    · rw [Region.eq_code hplace]
      simp only [State.readCode, hdouble, hsingle, hback, hslash, if_false]
      exact quiet_emit s _ _ (by simp)
    · rw [Region.eq_blockComment hplace]
      simp only [hstar, false_and, if_false]
      exact quiet_emit s _ _ (by simp)
    · obtain ⟨line, reversed, hregion⟩ := Region.eq_literal hplace
      have hdelimiter := delimiter_ne_of_isBlank hc kind
      rw [hregion]
      simp only [State.readLiteral, hne, hescape, hdelimiter, if_false, false_and, Bool.false_eq_true]
      exact quiet_readContent hregion _ _
  induction u generalizing s with
  | nil => exact .refl s
  | cons c u ih =>
      have hc := hblank c List.mem_cons_self
      have hne : c ≠ '\n' := fun heq => hfeed (heq ▸ List.mem_cons_self)
      have hstart := (h.blank hc hne (u.head?.or next)).atLineStart h
      have hmore := ih hstart (fun d hd => hblank d (List.mem_cons_of_mem _ hd))
        fun hmem => hfeed (List.mem_cons_of_mem _ hmem)
      exact (hone h hc hne _).trans hmore

/-! ## Two scans side by side -/

/-- A literal of a text and the literal that it becomes when the text is moved in. -/
structure Moved (l l' : ScriptLiteral) : Prop where
  ending : ending l' = ending l
  content : l'.content = movedIn l.content

/-- Literals that were moved have ended in the same ways. -/
theorem map_ending_of_moved {ls ls' : List ScriptLiteral} (h : List.Forall₂ Moved ls ls') :
    ls'.map ending = ls.map ending := by
  induction h with
  | nil => rfl
  | cons hfirst _ ih => rw [List.map_cons, List.map_cons, hfirst.ending, ih]

/-- Two scans, of a text and of the text moved in, that have recorded the same literals but for the
moves.  If they stand in a literal, what they read of it is so related. -/
structure Abreast (related : Text → Text → Prop) (s s' : State) : Prop extends Similar s s' where
  found : List.Forall₂ Moved s.found s'.found
  inside : ∀ l l', s.region = .literal l → s'.region = .literal l' → related l.soFar l'.soFar

/-- What the scans read of an open literal, when they have read so much of a line behind the blanks
of one of them: the literal began on the line, or before. -/
inductive OnLine (line : Text) : Text → Text → Prop where
  | began (kind : LiteralKind) {content : Text} (h : kind.delimiter :: content <:+ line) :
      OnLine line content content
  | carried {front moved : Text} (h : MovesTo front moved) :
      OnLine line (front ++ line) (moved ++ ' ' :: ' ' :: line)

namespace OnLine

variable {line content moved : Text}

/-- A character is added to the line and to the contents on it. -/
theorem snoc (h : OnLine line content moved) (c : Char) :
    OnLine (line ++ [c]) (content ++ [c]) (moved ++ [c]) := by
  cases h with
  | began kind h =>
      obtain ⟨before, rfl⟩ := h
      exact .began kind ⟨before, by simp⟩
  | carried h =>
      have hcarried : OnLine (line ++ [c]) _ _ := .carried h
      simpa using hcarried

/-- A literal that ends on the line. -/
theorem movedIn (h : OnLine line content moved) (hline : '\n' ∉ line) :
    moved = movedIn content := by
  cases h with
  | began _ h =>
      have hcontent : '\n' ∉ content := fun hmem => hline (h.subset (List.mem_cons_of_mem _ hmem))
      exact (Layout.movedIn_of_no_feed hcontent).symm
  | carried h => exact (h.movedIn hline).symm

/-- A literal that goes over the end of the line, in which there may be a carriage return. -/
theorem movesTo (h : OnLine line content moved) {ending : Text} (hline : '\n' ∉ line ++ ending)
    (hdrop : dropReturn (line ++ ending) = line) (hmark : Text.allBlank line = false) :
    MovesTo (content ++ ending ++ ['\n']) (moved ++ ['\n']) := by
  cases h with
  | began kind h =>
      obtain ⟨before, rfl⟩ := h
      have hkind : kind.delimiter ≠ '\r' := (delimiter_ne_of_isBlank (by decide) kind).symm
      rw [List.append_assoc, List.cons_append] at hline hdrop
      rw [Layout.dropReturn_append_cons hkind] at hdrop
      have hcontent : '\n' ∉ content ++ ending := fun hmem =>
        hline (List.mem_append_right _ (List.mem_cons_of_mem _ hmem))
      have hkept : dropReturn (content ++ ending) = content := by simpa using hdrop
      have hfirst := Layout.movesTo_first hcontent
      rwa [hkept] at hfirst
  | @carried front front' h =>
      have hwhole := h.line hline
      rw [hdrop, indentLine_of_mark hmark] at hwhole
      simpa using hwhole

end OnLine

namespace Abreast

variable {related related' : Text → Text → Prop} {s s' t t' : State}

/-- Runs in which no literal begins or ends. -/
theorem quiet (h : Abreast related s s') {text text' : Text} (hs : Quiet text s t)
    (hs' : Quiet text' s' t') (hsimilar : Similar t t')
    (hrelated : ∀ content moved, related content moved →
      related' (content ++ text) (moved ++ text')) : Abreast related' t t' := by
  refine ⟨hsimilar, by rw [hs.found, hs'.found]; exact h.found, fun l l' hl hl' => ?_⟩
  obtain ⟨before, hbefore, hread⟩ := hs.inside l hl
  obtain ⟨before', hbefore', hread'⟩ := hs'.inside l' hl'
  rw [hread, hread']
  exact hrelated _ _ (h.inside _ _ hbefore hbefore')

/-- What both scans read alike ends literals alike. -/
theorem terminated (h : Abreast related s s') {u : Text}
    (hends : ∀ l ∈ (s.read u).found, l.terminated = true) :
    ∀ l ∈ (s'.read u).found, l.terminated = true := by
  obtain ⟨new, new', hnew, hnew', hendings⟩ := (h.toSimilar.readBefore none u).recorded
  refine terminated_of_endings ?_ hends
  rw [State.read, State.read, hnew, hnew', List.map_append, List.map_append, hendings,
    map_ending_of_moved h.found]

variable {line : Text}

/-- Both read the same character of a line, and emit the same for it. -/
theorem emit (h : Abreast (OnLine line) s s') {c : Char} {next : Option Char} {shown : Char}
    {r r' : Region} (hstep : s.step c next = s.emit shown r)
    (hstep' : s'.step c next = s'.emit shown r')
    (hinside : ∀ l l', r = .literal l → r' = .literal l' →
      OnLine (line ++ [c]) l.soFar l'.soFar) :
    Abreast (OnLine (line ++ [c])) (s.step c next) (s'.step c next) := by
  refine ⟨(h.toSimilar.step c next).similar h.context, ?_, ?_⟩
  · rw [hstep, hstep']
    exact h.found
  · rw [hstep, hstep']
    exact hinside

/-- In code both scans read a character in the same way. -/
theorem readCode (h : Abreast (OnLine line) s s') (hs : s.region = .code) (hs' : s'.region = .code)
    (c : Char) (next : Option Char) :
    Abreast (OnLine (line ++ [c])) (s.step c next) (s'.step c next) := by
  have hopens : regexAllowed s.codeReversed = regexAllowed s'.codeReversed := by
    rw [regexAllowed_eq, regexAllowed_eq, h.context]
  have hstep : s.step c next = s.readCode c next := by rw [State.step, hs]
  have hstep' : s'.step c next = s'.readCode c next := by rw [State.step, hs']
  have hopened (kind : LiteralKind) (hc : c = kind.delimiter) :
      OnLine (line ++ [c]) (opened kind s.line).soFar (opened kind s'.line).soFar :=
    .began kind ⟨line, by rw [hc]; rfl⟩
  rw [State.readCode] at hstep hstep'
  rw [← hopens] at hstep'
  split_ifs at hstep hstep' with hdouble hsingle hback hslash hline hblock hregex
  · exact h.emit hstep hstep' (by rintro _ _ ⟨⟩ ⟨⟩; exact hopened .double hdouble)
  · exact h.emit hstep hstep' (by rintro _ _ ⟨⟩ ⟨⟩; exact hopened .single hsingle)
  · exact h.emit hstep hstep' (by rintro _ _ ⟨⟩ ⟨⟩; exact hopened .template hback)
  · exact h.emit hstep hstep' (by rintro _ _ ⟨⟩ ⟨⟩)
  · exact h.emit hstep hstep' (by rintro _ _ ⟨⟩ ⟨⟩)
  · exact h.emit hstep hstep' (by rintro _ _ ⟨⟩ ⟨⟩; exact hopened .regex hslash)
  · exact h.emit hstep hstep' (by rintro _ _ ⟨⟩ ⟨⟩)
  · exact h.emit hstep hstep' (by rintro _ _ ⟨⟩ ⟨⟩)

/-- In a literal they do, too, up to the end of the line. -/
theorem readLiteral (h : Abreast (OnLine line) s s') (hline : '\n' ∉ line) {l l' : OpenLiteral}
    (hs : s.region = .literal l) (hs' : s'.region = .literal l') {c : Char} (hc : c ≠ '\n')
    (next : Option Char) : Abreast (OnLine (line ++ [c])) (s.step c next) (s'.step c next) := by
  have hshape := h.shape
  rw [hs, hs'] at hshape
  simp only [Region.shape, Shape.literal.injEq] at hshape
  obtain ⟨hkind, hescaped, hclass⟩ := hshape
  have hread := h.inside l l' hs hs'
  have hstep : s.step c next = s.readLiteral l c := by rw [State.step, hs]
  have hstep' : s'.step c next = s'.readLiteral l' c := by rw [State.step, hs']
  rw [State.readLiteral] at hstep hstep'
  rw [← hkind, ← hescaped, ← hclass] at hstep'
  have hcontent {escaped : Bool} (hstep : s.step c next = s.readContent l c escaped)
      (hstep' : s'.step c next = s'.readContent l' c escaped) :
      Abreast (OnLine (line ++ [c])) (s.step c next) (s'.step c next) := by
    refine h.emit hstep hstep' ?_
    rintro _ _ ⟨⟩ ⟨⟩
    simpa [OpenLiteral.soFar] using hread.snoc c
  simp only [hc, false_and, if_false] at hstep hstep'
  split_ifs at hstep hstep' with hpending hslash hclose
  · exact hcontent hstep hstep'
  · exact hcontent hstep hstep'
  · refine ⟨(h.toSimilar.step c next).similar h.context, ?_, ?_⟩
    · rw [hstep, hstep']
      refine .cons ⟨?_, hread.movedIn hline⟩ h.found
      rw [ending, ending, OpenLiteral.ended, OpenLiteral.ended, hkind]
    · rw [hstep]
      rintro _ _ ⟨⟩
  · exact hcontent hstep hstep'

/-- **One character of a line.** -/
theorem step (h : Abreast (OnLine line) s s') (hline : '\n' ∉ line) {c : Char} (hc : c ≠ '\n')
    (next : Option Char) : Abreast (OnLine (line ++ [c])) (s.step c next) (s'.step c next) := by
  have hshape := h.shape
  have hcomment {shown : Char} {r : Region} (hr : ∀ l, r ≠ .literal l)
      (hstep : s.step c next = s.emit shown r) (hstep' : s'.step c next = s'.emit shown r) :
      Abreast (OnLine (line ++ [c])) (s.step c next) (s'.step c next) :=
    h.emit hstep hstep' fun l _ hl => absurd hl (hr l)
  cases hs : s.region <;> cases hs' : s'.region <;> rw [hs, hs'] at hshape <;>
    simp only [Region.shape, reduceCtorEq] at hshape
  case code.code => exact h.readCode hs hs' c next
  case literal.literal l l' => exact h.readLiteral hline hs hs' hc next
  case lineComment.lineComment =>
    exact hcomment (r := .lineComment) (by simp) (by rw [State.step, hs, if_neg hc])
      (by rw [State.step, hs', if_neg hc])
  case blockOpening.blockOpening =>
    exact hcomment (r := .blockComment) (by simp) (by rw [State.step, hs]) (by rw [State.step, hs'])
  case blockComment.blockComment =>
    by_cases hend : c = '*' ∧ next = some '/'
    · exact hcomment (r := .blockClosing) (by simp) (by rw [State.step, hs, if_pos hend])
        (by rw [State.step, hs', if_pos hend])
    · exact hcomment (r := .blockComment) (by simp) (by rw [State.step, hs, if_neg hend])
        (by rw [State.step, hs', if_neg hend])
  case blockClosing.blockClosing =>
    exact hcomment (r := .code) (by simp) (by rw [State.step, hs]) (by rw [State.step, hs'])

/-- **The rest of a line.** -/
theorem readBefore (h : Abreast (OnLine line) s s') {u : Text} (hline : '\n' ∉ line ++ u)
    (next : Option Char) :
    Abreast (OnLine (line ++ u)) (s.readBefore next u) (s'.readBefore next u) := by
  induction u generalizing line s s' with
  | nil => rwa [List.append_nil]
  | cons c u ih =>
      have hbefore : '\n' ∉ line := fun hmem => hline (List.mem_append_left _ hmem)
      have hc : c ≠ '\n' := by
        rintro rfl
        exact hline (List.mem_append_right _ List.mem_cons_self)
      have hstep := h.step hbefore hc (u.head?.or next)
      rw [List.append_cons] at hline ⊢
      exact ih hstep hline

/-- What the scans read of an open literal behind a line; a blank line becomes empty. -/
inductive AtLineEnd (line : Text) : Text → Text → Prop where
  | blank {front moved : Text} (hblank : Text.allBlank line = true) (h : MovesTo front moved) :
      AtLineEnd line (front ++ line) moved
  | mark {content moved : Text} (hmark : Text.allBlank line = false)
      (h : OnLine line content moved) : AtLineEnd line content moved

/-- A literal that goes over the end of the line, in which there may be a carriage return. -/
theorem AtLineEnd.movesTo {content moved : Text} (h : AtLineEnd line content moved) {ending : Text}
    (hline : '\n' ∉ line ++ ending) (hdrop : dropReturn (line ++ ending) = line) :
    MovesTo (content ++ ending ++ ['\n']) (moved ++ ['\n']) := by
  cases h with
  | @blank front _ hblank h =>
      have hwhole := h.line hline
      rw [hdrop, Layout.indentLine, if_pos hblank] at hwhole
      simpa using hwhole
  | mark hmark h => exact h.movesTo hline hdrop hmark

/-- At the beginning of a line are both scans or neither. -/
theorem atLineStart (h : Abreast related s s') (hs : AtLineStart s) : AtLineStart s' :=
  ⟨h.context ▸ hs.settled, h.shape ▸ hs.place⟩

/-- **A line**, up to its end. -/
theorem lineText (h : Abreast MovesTo s s') (hs : AtLineStart s) (hline : '\n' ∉ line) :
    Abreast (AtLineEnd line) (s.read line) (s'.read (indentLine line)) := by
  have hs' := h.atLineStart hs
  by_cases hblank : Text.allBlank line = true
  · have hblanks : ∀ c ∈ line, isBlank c = true := by simpa [Text.allBlank] using hblank
    have hsimilar := (hs.blanks hblanks hline none).symm.toSimilar.trans h.toSimilar
    rw [indentLine, if_pos hblank]
    refine h.quiet (hs.quiet_blanks hblanks hline none) (.refl s') hsimilar fun front moved hmoves => ?_
    rw [List.append_nil]
    exact .blank hblank hmoves
  · have hmark : Text.allBlank line = false := by simpa using hblank
    have htwo : ∀ c ∈ [' ', ' '], isBlank c = true := by decide
    have hno : '\n' ∉ [' ', ' '] := by decide
    have hsimilar := h.toSimilar.trans (hs'.blanks htwo hno (line.head?.or none)).toSimilar
    have hentered : Abreast (OnLine []) s (s'.readBefore (line.head?.or none) [' ', ' ']) := by
      refine h.quiet (.refl s) (hs'.quiet_blanks htwo hno _) hsimilar fun front moved hmoves => ?_
      exact .carried hmoves
    have hread := hentered.readBefore (u := line) (by simpa using hline) none
    have hsplit : s'.read (indentLine line) =
        (s'.readBefore (line.head?.or none) [' ', ' ']).readBefore none line := by
      rw [indentLine_of_mark hmark, ← State.readBefore_append]
      rfl
    rw [hsplit]
    exact ⟨hread.toSimilar, hread.found, fun l l' hl hl' => .mark hmark (hread.inside l l' hl hl')⟩

/-- **A line with its end**, in which there may be a carriage return. -/
theorem lineAndEnd (h : Abreast MovesTo s s') (hs : AtLineStart s) {line ending : Text}
    (hline : '\n' ∉ line) (hending : ending = [] ∨ ending = ['\r'])
    (hends : ∀ l ∈ (s.read (line ++ ending ++ ['\n'])).found, l.terminated = true)
    (hrelated : ∀ content moved, AtLineEnd line content moved →
      related (content ++ ending ++ ['\n']) (moved ++ ['\n'])) :
    Abreast related (s.read (line ++ ending ++ ['\n'])) (s'.read (indentLine line ++ ['\n'])) := by
  have hmoved : Aligned (s.read (line ++ ending ++ ['\n'])) (s.read (indentLine line ++ ['\n'])) := by
    rcases hending with rfl | rfl
    · rw [List.append_nil]
      exact hs.indentLine hline
    · have hreturn : '\n' ∉ line ++ ['\r'] := by simp [hline]
      have hdropped := hs.indentLine_dropReturn hreturn hends
      rwa [Text.dropReturn_append_return] at hdropped
  have hends' := h.terminated (terminated_of_endings hmoved.endings.symm hends)
  have hsimilar := hmoved.toSimilar.trans ((h.toSimilar.readBefore none _).similar h.context)
  have hquiet : Quiet (ending ++ ['\n']) (s.read line) (s.read (line ++ ending ++ ['\n'])) := by
    rcases hending with rfl | rfl
    · rw [List.append_nil, State.read_append_feed] at hends ⊢
      exact quiet_feed hends
    · rw [State.read_append_return_feed] at hends ⊢
      exact (quiet_return _ _).trans (quiet_feed hends)
  have hquiet' : Quiet ['\n'] (s'.read (indentLine line)) (s'.read (indentLine line ++ ['\n'])) := by
    rw [State.read_append_feed] at hends' ⊢
    exact quiet_feed hends'
  refine (h.lineText hs hline).quiet hquiet hquiet' hsimilar fun content moved hend => ?_
  rw [← List.append_assoc]
  exact hrelated content moved hend

/-- **A whole text.**  The literals of a text moved in are those of the text, each moved in. -/
theorem indent (h : Abreast MovesTo s s') (hs : AtLineStart s) (t : Text)
    (hends : ∀ l ∈ (s.read (t ++ ['\n'])).found, l.terminated = true) :
    List.Forall₂ Moved (s.read (t ++ ['\n'])).found (s'.read (indent t ++ ['\n'])).found := by
  induction hlen : t.length using Nat.strongRecOn generalizing s s' t with
  | ind n ih =>
      rcases Text.eq_line_or_append t with hno | ⟨line, rest, rfl, hline⟩
      · have hlast : Abreast (fun _ _ => True) (s.read (t ++ [] ++ ['\n']))
            (s'.read (indentLine t ++ ['\n'])) :=
          h.lineAndEnd hs hno (.inl rfl) (by rwa [List.append_nil]) fun _ _ _ => trivial
        rw [List.append_nil] at hlast
        rw [Layout.indent_of_no_feed hno]
        exact hlast.found
      · obtain ⟨ending, hending, hwhole⟩ : ∃ ending, (ending = [] ∨ ending = ['\r']) ∧
            line = dropReturn line ++ ending := by
          rw [dropReturn]
          split
          next hreturn =>
            obtain ⟨front, rfl⟩ := List.getLast?_eq_some_iff.1 hreturn
            exact ⟨['\r'], .inr rfl, by simp⟩
          next => exact ⟨[], .inl rfl, by simp⟩
        have hsplit (s : State) (front u : Text) :
            s.read (front ++ '\n' :: u) = (s.read (front ++ ['\n'])).read u := by
          have hfront : EndsLine (front ++ ['\n']) := .inr ⟨front, rfl⟩
          rw [← State.read_append s hfront]
          simp
        rw [List.append_assoc, List.cons_append, hsplit] at hends ⊢
        have hfirst : ∀ l ∈ (s.read (line ++ ['\n'])).found, l.terminated = true :=
          fun l hl => hends l ((State.found_readBefore _ none _).subset hl)
        have hkept : '\n' ∉ dropReturn line := fun hmem => hline (hwhole ▸ List.mem_append_left _ hmem)
        have hline' : Abreast MovesTo (s.read (line ++ ['\n']))
            (s'.read (indentLine (dropReturn line) ++ ['\n'])) := by
          rw [hwhole] at hline hfirst
          have hread := h.lineAndEnd hs hkept hending hfirst
            fun _ _ hend => hend.movesTo hline (by rw [← hwhole])
          rwa [← hwhole] at hread
        have hstart := atLineStart_read s line
        cases rest with
        | nil =>
            rw [Layout.indent_feed hline]
            exact (quiet_feed hends).found ▸ hline'.found
        | cons c rest =>
            have hne : c :: rest ≠ [] := List.cons_ne_nil _ _
            have hshorter : (c :: rest).length < n := by
              rw [← hlen]
              simp only [List.length_append, List.length_cons]
              omega
            rw [Layout.indent_append_feed hline hne, List.append_assoc, List.cons_append (a := '\n'),
              hsplit s' (indentLine (dropReturn line))]
            exact ih _ hshorter hline' hstart (c :: rest) hends rfl

end Abreast

/-! ## Blocks of a script -/

/-- The same scan after some literals. -/
def State.after (s : State) (earlier : List ScriptLiteral) : State :=
  { s with found := s.found ++ earlier }

/-- Literals recorded before do not matter. -/
theorem State.readBefore_after (s : State) (earlier : List ScriptLiteral) (next : Option Char)
    (t : Text) : (s.after earlier).readBefore next t = (s.readBefore next t).after earlier := by
  have hstep (s : State) (c : Char) (next : Option Char) :
      (s.after earlier).step c next = (s.step c next).after earlier := by
    rw [State.step, State.step]
    cases hregion : s.region with
    | literal l =>
        simp only [State.after, hregion, State.readLiteral]
        split_ifs <;> rfl
    | code =>
        simp only [State.after, hregion, State.readCode]
        split_ifs <;> rfl
    | lineComment =>
        simp only [State.after, hregion]
        split_ifs <;> rfl
    | blockComment =>
        simp only [State.after, hregion]
        split_ifs <;> rfl
    | _ => simp only [State.after, hregion]; rfl
  induction t generalizing s with
  | nil => rfl
  | cons c t ih => rw [State.readBefore, State.readBefore, hstep, ih]

/-- A text that, scanned where a statement begins, ends in code, with all its literals ended. -/
structure Closes (t : Text) : Prop where
  region : (State.start.read t).region = .code
  ended : ∀ l ∈ (State.start.read t).found, l.terminated = true

/-- A text that is closed after a finished statement is closed. -/
theorem closes_of_closedAfterStatement {t : Text}
    (houtside : (scan (";\n".toList ++ t)).isOutside = true)
    (hended : ∀ l ∈ (strip (";\n".toList ++ t)).literals, l.terminated = true) : Closes t := by
  let alone : State := ⟨.code, 2, ['\n', ';'], []⟩
  have hends : EndsLine ";\n".toList := .inr ⟨[';'], rfl⟩
  have halone : scan (";\n".toList ++ t) = alone.read t := by
    rw [scan, State.read_append _ hends]
    rfl
  have hsimilar : Similar State.start alone := ⟨rfl, rfl⟩
  rw [halone, State.isOutside, decide_eq_true_eq] at houtside
  rw [strip, halone] at hended
  obtain ⟨hregion, hfound⟩ := hsimilar.closed (fun _ hl => absurd hl List.not_mem_nil) houtside hended
  exact ⟨hregion, hfound⟩

/-- A line feed behind it ends no literal. -/
theorem Closes.read_feed {t : Text} (h : Closes t) :
    (State.start.read (t ++ ['\n'])).region = .code ∧
      (State.start.read (t ++ ['\n'])).found = (State.start.read t).found := by
  rw [State.read_append_feed, State.step, h.region]
  exact ⟨rfl, rfl⟩

/-- The text moved in, put where a statement begins. -/
theorem Closes.indent {t : Text} (h : Closes t) {stack : List Char} {s : State}
    (hs : BetweenStatements stack s) (hfound : s.found = []) :
    (s.read (indent t ++ ['\n'])).region = .code ∧
      List.Forall₂ Moved (State.start.read t).found (s.read (indent t ++ ['\n'])).found := by
  have hstart : AtLineStart State.start := ⟨rfl, .inl rfl⟩
  have hsimilar : Similar State.start s := ⟨by rw [hs.region]; rfl, hs.fresh.symm⟩
  have habreast : Abreast MovesTo State.start s :=
    ⟨hsimilar, by rw [hfound]; exact .nil, fun _ _ hl => by cases hl⟩
  obtain ⟨hregion, hfeed⟩ := h.read_feed
  have hends : ∀ l ∈ (State.start.read (t ++ ['\n'])).found, l.terminated = true := by
    rw [hfeed]
    exact h.ended
  have hmoved := (aligned_indent hstart t hends).toSimilar.trans
    ((hsimilar.readBefore none _).similar hsimilar.context)
  refine ⟨Region.eq_code (by rw [State.read, ← hmoved.shape, hregion]; rfl), ?_⟩
  rw [← hfeed]
  exact habreast.indent hstart t hends

/-- A section of such text. -/
theorem Closes.sectionText {t : Text} (h : Closes t) {stack : List Char} {s : State}
    (hs : BetweenStatements stack s) :
    (s.read (Layout.sectionText t)).region = .code ∧
      ∃ moved, (s.read (Layout.sectionText t)).found = moved ++ s.found ∧
        List.Forall₂ Moved (State.start.read t).found moved := by
  rw [Layout.sectionText]
  split
  next hempty =>
    obtain rfl := List.isEmpty_iff.1 hempty
    exact ⟨hs.region, [], rfl, .nil⟩
  next =>
    have hends : EndsLine ['\n'] := .inr ⟨[], rfl⟩
    have hbelow := hs.read_feed
    have hfound : (s.read ['\n']).found = s.found := by
      rw [State.read, State.readBefore_plain (by decide) s hs.region]
    let fresh : State := { s.read ['\n'] with found := [] }
    have hfresh : BetweenStatements stack fresh :=
      ⟨⟨hbelow.region, fun _ hl => absurd hl List.not_mem_nil, hbelow.brackets⟩, hbelow.fresh⟩
    have hafter : s.read ['\n'] = fresh.after s.found := by
      rw [State.after, List.nil_append, ← hfound]
    obtain ⟨hregion, hmoved⟩ := h.indent hfresh rfl
    have hsplit : '\n' :: Layout.indent t ++ ['\n'] = ['\n'] ++ (Layout.indent t ++ ['\n']) := rfl
    rw [hsplit, State.read_append s hends, hafter, State.read, State.readBefore_after]
    exact ⟨hregion, _, rfl, hmoved⟩

/-- Guarded, a text is closed again, and its literals are moved in. -/
theorem Closes.guarded {t : Text} (h : Closes t) {handler : Text}
    (hhandler : (Layout.indent handler).all isPlain = true) :
    Closes (Block.guarded t handler).text ∧
      List.Forall₂ Moved (State.start.read t).found
        (State.start.read (Block.guarded t handler).text).found := by
  have hopen : EndsLine "try \x7b\n".toList := .inr ⟨"try \x7b".toList, by decide⟩
  have hmoved : EndsLine (Layout.indent t ++ ['\n']) := .inr ⟨_, rfl⟩
  have hsplit : (Block.guarded t handler).text =
      "try \x7b\n".toList ++ ((Layout.indent t ++ ['\n']) ++
        ("\x7d catch (e) \x7b\n".toList ++ Layout.indent handler ++ "\n\x7d".toList)) := by
    have htext : (Block.guarded t handler).text =
        "try \x7b\n".toList ++ Layout.indent t ++ "\n\x7d catch (e) \x7b\n".toList ++
          Layout.indent handler ++ "\n\x7d".toList := rfl
    rw [htext]
    simp
  have hplain : ("\x7d catch (e) \x7b\n".toList ++ Layout.indent handler ++ "\n\x7d".toList).all
      isPlain = true := by
    rw [List.all_append, List.all_append, hhandler]
    decide
  have hinside : BetweenStatements ['{'] (State.start.read "try \x7b\n".toList) :=
    ⟨⟨rfl, fun _ hl => absurd hl List.not_mem_nil, rfl⟩, rfl⟩
  obtain ⟨hregion, hfound⟩ := h.indent hinside rfl
  have hread : (State.start.read (Block.guarded t handler).text).region = .code ∧
      (State.start.read (Block.guarded t handler).text).found =
        ((State.start.read "try \x7b\n".toList).read (Layout.indent t ++ ['\n'])).found := by
    rw [hsplit, State.read_append _ hopen, State.read_append _ hmoved, State.read,
      State.readBefore_plain hplain _ hregion]
    exact ⟨rfl, rfl⟩
  refine ⟨⟨hread.1, ?_⟩, by rwa [hread.2]⟩
  rw [hread.2]
  exact terminated_of_endings (map_ending_of_moved hfound) h.ended

/-- What literals are, apart from their places, after a move. -/
theorem kinds_and_contents_of_moved {ls ls' : List ScriptLiteral} (h : List.Forall₂ Moved ls ls') :
    ls'.map (·.kind) = ls.map (·.kind) ∧
      ls'.map (·.content) = (ls.map (·.content)).map movedIn := by
  induction h with
  | nil => exact ⟨rfl, rfl⟩
  | @cons l l' _ _ hfirst _ ih =>
      have hkind : l'.kind = l.kind := congrArg (·.1) hfirst.ending
      exact ⟨by rw [List.map_cons, List.map_cons, hkind, ih.1],
        by rw [List.map_cons, List.map_cons, List.map_cons, hfirst.content, ih.2]⟩

end Scan

open Scan Layout

/-- The literal of the application's name in a script with default settings. -/
def applicationName : ScriptLiteral := ⟨.double, 2, "DEVONthink".toList, false, true⟩

/-- A script has, besides the application's name, the literals of a text: with the same kinds in the
same order, each content moved in a given way.  They say the same exactly if none of them goes over
a line end. -/
structure MovesLiterals (move : Text → Text) (text script : Text) : Prop where
  application : (strip script).literals.head? = some applicationName
  kinds : (strip script).literals.tail.map (·.kind) = (strip text).literals.map (·.kind)
  contents : (strip script).literals.tail.map (·.content) =
    ((strip text).literals.map (·.content)).map move
  same_iff : (strip script).literals.tail.map (·.content) = (strip text).literals.map (·.content) ↔
    ∀ l ∈ (strip text).literals, '\n' ∉ l.content

namespace Builder

/-- A text in a script with nothing else. -/
theorem literals_assemble {text : Text} (h : Closes text) :
    ∃ moved, (strip (assemble {} [[], [], text])).literals = applicationName :: moved.reverse ∧
      List.Forall₂ Moved (State.start.read text).found moved := by
  have hopening : EndsLine opening := .inr ⟨"(function () \x7b".toList, by decide⟩
  have hframe : EndsLine (opening ++ harness {}) := hopening.append (endsLine_harness {})
  obtain ⟨front, hfront⟩ : ∃ front, front = State.start.read (opening ++ harness {}) := ⟨_, rfl⟩
  have hname : front.found = [applicationName] := by
    rw [hfront]
    decide +kernel
  have hbegin : BetweenStatements ['{', '('] front := by
    rw [hfront, State.read_append _ hopening]
    exact betweenStatements_harness (by decide) betweenStatements_opening
  obtain ⟨hregion, moved, hfound, hmoved⟩ := h.sectionText hbegin
  have hscript : scan (assemble {} [[], [], text]) = (front.read (sectionText text)).read closing := by
    have hparts : assemble {} [[], [], text] =
        (opening ++ harness {}) ++ (sectionText text ++ closing) := by
      rw [assemble, List.append_assoc]
      simp only [List.flatMap_cons, List.flatMap_nil, List.append_nil]
      rfl
    rw [scan, hparts, State.read_append _ hframe, ← hfront,
      State.read_append _ (endsLine_sectionText text)]
  refine ⟨moved, ?_, hmoved⟩
  rw [strip, hscript, State.read, State.readBefore_plain (by decide) _ hregion, State.literals,
    hfound, hname]
  exact List.reverse_concat

/-- What is known of the literals of a script, from what became of their kinds and contents. -/
theorem movesLiterals {move : Text → Text}
    (hmove : ∀ content, move content = content ↔ '\n' ∉ content) {text script : Text}
    {found moved : List ScriptLiteral} (htext : (strip text).literals = found.reverse)
    (hscript : (strip script).literals = applicationName :: moved.reverse)
    (hkinds : moved.map (·.kind) = found.map (·.kind))
    (hcontents : moved.map (·.content) = (found.map (·.content)).map move) :
    MovesLiterals move text script := by
  have hsame : (strip script).literals.tail.map (·.content) =
      ((strip text).literals.map (·.content)).map move := by
    rw [htext, hscript, List.tail_cons, List.map_reverse, List.map_reverse, List.map_reverse,
      hcontents]
  refine ⟨by rw [hscript]; rfl, ?_, hsame, ?_⟩
  · rw [htext, hscript, List.tail_cons, List.map_reverse, List.map_reverse, hkinds]
  · rw [hsame, List.map_map, List.map_inj_left]
    exact forall₂_congr fun l _ => hmove l.content

/-- The handler that is put in by default has no literal. -/
theorem isPlain_indent_defaultHandler : (indent Block.defaultHandler).all isPlain = true := by
  unfold Block.defaultHandler
  rw [String.toList_append, String.toList_ofList, String.toList_ofList]
  decide +kernel

/-- **Literals of a block.**  A block that is closed after a finished statement, alone in a script
with default settings, comes into it with its literals: of the same kinds in the same order, each
content moved in, once in a plain block and twice in a guarded one. -/
theorem movesLiterals_build {block : Text}
    (houtside : (scan (";\n".toList ++ block)).isOutside = true)
    (hended : ∀ l ∈ (strip (";\n".toList ++ block)).literals, l.terminated = true) :
    ∃ plain guarded, ((ofSettings {}).addCode block).build = .ok plain ∧
      ((ofSettings {}).addTryCatch block none).build = .ok guarded ∧
        MovesLiterals movedIn block plain ∧ MovesLiterals (movedIn ∘ movedIn) block guarded := by
  have hblock := closes_of_closedAfterStatement houtside hended
  have hfound : (strip block).literals = (State.start.read block).found.reverse := by
    rw [strip, State.literals, scan, hblock.region]
  obtain ⟨moved, hplain, hmoved⟩ := literals_assemble hblock
  obtain ⟨hguarded, hinside⟩ := hblock.guarded isPlain_indent_defaultHandler
  obtain ⟨twice, hscript, htwice⟩ := literals_assemble hguarded
  obtain ⟨hkinds, hcontents⟩ := kinds_and_contents_of_moved hmoved
  obtain ⟨hkinds₁, hcontents₁⟩ := kinds_and_contents_of_moved hinside
  obtain ⟨hkinds₂, hcontents₂⟩ := kinds_and_contents_of_moved htwice
  refine ⟨_, _, rfl, rfl, movesLiterals (fun _ => movedIn_eq_self_iff) hfound hplain hkinds hcontents,
    movesLiterals (fun _ => movedIn_movedIn_eq_self_iff) hfound hscript (hkinds₂.trans hkinds₁) ?_⟩
  rw [hcontents₂, hcontents₁]
  exact List.map_map

/-- A string on one line keeps its content.  A template over three lines loses the return at the end
of the first and the blank on the second, and gains blanks before the third: two in a plain block,
four in a guarded one. -/
theorem movesLiterals_build_template :
    let block : Text := ['"', 'n', '"', '+', '\x60', 'a', '\r', '\n', ' ', '\n', 'b', '\x60', ';']
    (scan (";\n".toList ++ block)).isOutside = true ∧
      (∀ l ∈ (strip (";\n".toList ++ block)).literals, l.terminated = true) ∧
      ∃ plain guarded, ((ofSettings {}).addCode block).build = .ok plain ∧
        ((ofSettings {}).addTryCatch block none).build = .ok guarded ∧
          (strip plain).literals.tail.map (·.content) =
            [['n'], ['a', '\n', '\n', ' ', ' ', 'b']] ∧
          (strip guarded).literals.tail.map (·.content) =
            [['n'], ['a', '\n', '\n', ' ', ' ', ' ', ' ', 'b']] := by
  intro block
  have houtside : (scan (";\n".toList ++ block)).isOutside = true := by decide +kernel
  have hended : ∀ l ∈ (strip (";\n".toList ++ block)).literals, l.terminated = true := by
    decide +kernel
  obtain ⟨plain, guarded, hplain, hguarded, honce, htwice⟩ := movesLiterals_build houtside hended
  refine ⟨houtside, hended, plain, guarded, hplain, hguarded, ?_, ?_⟩
  · rw [honce.contents]
    decide +kernel
  · rw [htwice.contents]
    decide +kernel

/-- A template over two lines does not come into a script as written, neither in a plain nor in a
guarded block. -/
theorem content_ne_of_template_over_lines :
    let block : Text := ['\x60', 'a', '\n', 'b', '\x60']
    (scan (";\n".toList ++ block)).isOutside = true ∧
      (∀ l ∈ (strip (";\n".toList ++ block)).literals, l.terminated = true) ∧
      ∃ plain guarded, ((ofSettings {}).addCode block).build = .ok plain ∧
        ((ofSettings {}).addTryCatch block none).build = .ok guarded ∧
          (strip plain).literals.tail.map (·.content) ≠ (strip block).literals.map (·.content) ∧
          (strip guarded).literals.tail.map (·.content) ≠ (strip block).literals.map (·.content) := by
  intro block
  refine ⟨by decide +kernel, by decide +kernel, _, _, rfl, rfl, ?_, ?_⟩
  · decide +kernel
  · decide +kernel

end Builder

end Scriptwright
