import Mathlib.Data.List.Forall2
import Mathlib.Data.List.Induction
import Mathlib.Tactic.SplitIfs
import Scriptwright.Proofs.ScanState

/-!
# Every character keeps its place

A finding about the code is reported on a line of the script, so the code must not
shift.  Each step of the scanner emits one character for the one it reads
(`Shows`: that character or a space, and a line feed for nothing but a line feed),
counts the line feeds, and puts a character that belongs to a literal at the end
of what was read of it.

`Tracks` is the invariant of a text read so far: the code shows it, the line is
its line, a literal that is open began where the scanner left the code and holds
all that was read since, and a literal that ended stands in the text
(`Stands`).  `Tracks.step` keeps it, and so **the scanner keeps every character in
place** (`keepsPlaces_strip`).
-/

namespace Scriptwright

namespace Text

end Text

namespace Scan

/-- What the code may show for a character: itself or a space, and a line feed for a line feed
only. -/
structure Shows (c shown : Char) : Prop where
  same_or_space : shown = c ∨ shown = ' '
  feed_iff : shown = '\n' ↔ c = '\n'

theorem Shows.refl (c : Char) : Shows c c := ⟨.inl rfl, .rfl⟩

theorem Shows.space {c : Char} (h : c ≠ '\n') : Shows c ' ' := ⟨.inr rfl, by simp [h]⟩

theorem shows_blankOf (c : Char) : Shows c (blankOf c) := by
  unfold blankOf
  split
  next h => exact h ▸ .refl _
  next h => exact .space h

/-- Behind a text the scanner leaves the code for a literal of a kind, if `next` comes behind its
delimiter. -/
def OpensBehind (before : Text) (kind : LiteralKind) (next : Option Char) : Prop :=
  (State.start.readBefore (some kind.delimiter) before).region = .code ∧
    ((State.start.readBefore (some kind.delimiter) before).step kind.delimiter next).region =
      .literal (opened kind (Text.lineAfter before))

/-- A literal stands in a text: behind `before` the scanner opens it, the characters behind the
opening delimiter are its content, and what is behind those begins with its closing delimiter or,
if it has none, with a line feed or not at all. -/
structure Stands (t : Text) (l : ScriptLiteral) (before behind : Text) : Prop where
  text : t = before ++ l.kind.delimiter :: (l.content ++ behind)
  opens : OpensBehind before l.kind (l.content ++ behind).head?
  line : l.line = Text.lineAfter before
  stop : if l.terminated then behind.head? = some l.kind.delimiter
    else behind = [] ∨ behind.head? = some '\n'

/-- What follows a text does not matter to a literal that ended in it. -/
theorem Stands.append {t : Text} {l : ScriptLiteral} {before behind : Text}
    (h : Stands t l before behind) (hne : behind ≠ []) (u : Text) :
    Stands (t ++ u) l before (behind ++ u) := by
  obtain ⟨c, more, rfl⟩ := List.exists_cons_of_ne_nil hne
  refine ⟨by simp [h.text], ?_, h.line, ?_⟩
  · have hopens := h.opens
    cases hcontent : l.content <;> rw [hcontent] at hopens <;> exact hopens
  · have hstop := h.stop
    cases hterminated : l.terminated <;> simp_all

/-- What is known of a scan after a text with `next` behind it. -/
structure Tracks (t : Text) (next : Option Char) (s : State) : Prop where
  reached : s = State.start.readBefore next t
  code : List.Forall₂ Shows t.reverse s.codeReversed
  line : s.line = Text.lineAfter t
  found : ∀ l ∈ s.found, ∃ before behind, behind ≠ [] ∧ Stands t l before behind
  inside : ∀ l, s.region = .literal l → ∃ before,
    t = before ++ l.kind.delimiter :: l.reversed.reverse ∧ l.line = Text.lineAfter before ∧
      OpensBehind before l.kind (l.reversed.reverse.head?.or next)

namespace Tracks

variable {t : Text} {c : Char} {s : State}

theorem start (next : Option Char) : Tracks [] next State.start where
  reached := rfl
  code := .nil
  line := rfl
  found := fun _ hl => absurd hl List.not_mem_nil
  inside := fun _ hl => by cases hl

/-- Emitting a character the code may show, and recording no literal but one that ended here. -/
theorem emit (h : Tracks t (some c) s) (next : Option Char) (ended : List ScriptLiteral)
    (hended : ∀ l ∈ ended, ∃ before, Stands (t ++ [c]) l before [c]) {shown : Char}
    (hshown : Shows c shown) {r : Region}
    (hstep : s.step c next = ({ s with found := ended ++ s.found } : State).emit shown r)
    (hinside : ∀ l, r = .literal l → ∃ before,
      t ++ [c] = before ++ l.kind.delimiter :: l.reversed.reverse ∧
        l.line = Text.lineAfter before ∧
          OpensBehind before l.kind (l.reversed.reverse.head?.or next)) :
    Tracks (t ++ [c]) next (s.step c next) where
  reached := by
    rw [State.readBefore_append, h.reached]
    rfl
  code := by
    rw [hstep, List.reverse_append]
    exact .cons hshown h.code
  line := by
    rw [hstep, State.emit]
    by_cases hc : c = '\n'
    · simp [h.line, hc, hshown.feed_iff.2 hc, Text.lineAfter, Text.feeds]
    · simp [h.line, hc, mt hshown.feed_iff.1 hc, Text.lineAfter, Text.feeds]
  found := by
    intro l hl
    rw [hstep] at hl
    rcases List.mem_append.1 hl with hl | hl
    · obtain ⟨before, hstands⟩ := hended l hl
      exact ⟨before, [c], List.cons_ne_nil _ _, hstands⟩
    · obtain ⟨before, behind, hne, hstands⟩ := h.found l hl
      exact ⟨before, behind ++ [c], by simp [hne], hstands.append hne [c]⟩
  inside := by
    rw [hstep]
    exact hinside

/-- In code and comments: the place behind the character is no literal, or the one it opens. -/
theorem outside (h : Tracks t (some c) s) (next : Option Char) {shown : Char}
    (hshown : Shows c shown) {r : Region} (hstep : s.step c next = s.emit shown r)
    (hr : ∀ l, r = .literal l → s.region = .code ∧ c = l.kind.delimiter ∧
      l = opened l.kind s.line) :
    Tracks (t ++ [c]) next (s.step c next) := by
  refine h.emit next [] (by simp) hshown hstep fun l hl => ?_
  obtain ⟨hcode, rfl, hopened⟩ := hr l hl
  rw [h.line] at hopened
  refine ⟨t, by rw [hopened]; rfl, by rw [hopened]; rfl, ?_⟩
  have hreversed : l.reversed = [] := by rw [hopened]; rfl
  rw [hreversed]
  refine ⟨by rw [← h.reached, hcode], ?_⟩
  show ((State.start.readBefore _ t).step _ next).region = _
  rw [← h.reached, hstep, ← hopened]
  exact hl

/-- A character that belongs to the content of a literal. -/
theorem content (h : Tracks t (some c) s) (next : Option Char) {l : OpenLiteral}
    (hregion : s.region = .literal l) {escaped : Bool}
    (hstep : s.step c next = s.readContent l c escaped) :
    Tracks (t ++ [c]) next (s.step c next) := by
  refine h.emit next [] (by simp) (shows_blankOf c) hstep ?_
  rintro _ ⟨⟩
  obtain ⟨before, ht, hline, hopens⟩ := h.inside l hregion
  refine ⟨before, by simp [ht], hline, ?_⟩
  rw [List.reverse_cons, List.head?_append, Option.or_assoc]
  exact hopens

/-- A character that ends a literal: its delimiter, or a line feed that cuts it off. -/
theorem ended (h : Tracks t (some c) s) (next : Option Char) {l : OpenLiteral}
    (hregion : s.region = .literal l) {rawNewline terminated : Bool}
    (hc : c = if terminated then l.kind.delimiter else '\n')
    (hstep : s.step c next = (s.record (l.ended rawNewline terminated)).emit c .code) :
    Tracks (t ++ [c]) next (s.step c next) := by
  refine h.emit next [l.ended rawNewline terminated] ?_ (.refl c) hstep ?_
  · intro l' hl'
    obtain rfl := List.mem_singleton.1 hl'
    obtain ⟨before, ht, hline, hopens⟩ := h.inside l hregion
    refine ⟨before, ?_, ?_, hline, ?_⟩
    · rw [ht]
      simp [OpenLiteral.ended]
    · simpa [OpenLiteral.ended] using hopens
    · cases terminated <;> simp_all [OpenLiteral.ended]
  · rintro _ ⟨⟩

theorem readLiteral (h : Tracks t (some c) s) (next : Option Char) {l : OpenLiteral}
    (hregion : s.region = .literal l) : Tracks (t ++ [c]) next (s.step c next) := by
  have hstep : s.step c next = s.readLiteral l c := by rw [State.step, hregion]
  have hcontent (escaped : Bool) (hread : s.readLiteral l c = s.readContent l c escaped) :
      Tracks (t ++ [c]) next (s.step c next) := h.content next hregion (hstep.trans hread)
  rw [State.readLiteral] at hstep hcontent
  split_ifs at hstep hcontent with hcut hescaped hslash hclose hfeed
  · exact h.ended next hregion (by simp [hcut.1]) hstep
  · exact hcontent false rfl
  · exact hcontent true rfl
  · exact h.ended next hregion (by simp [hclose.1]) hstep
  · exact h.ended next hregion (by simp [hfeed.1]) hstep
  · exact hcontent false rfl

theorem readCode (h : Tracks t (some c) s) (next : Option Char) (hregion : s.region = .code) :
    Tracks (t ++ [c]) next (s.step c next) := by
  have hstep : s.step c next = s.readCode c next := by rw [State.step, hregion]
  rw [State.readCode] at hstep
  split_ifs at hstep with hdouble hsingle hback hslash hline hblock hregex
  · exact h.outside next (.refl c) hstep (by rintro _ ⟨⟩; exact ⟨hregion, hdouble, rfl⟩)
  · exact h.outside next (.refl c) hstep (by rintro _ ⟨⟩; exact ⟨hregion, hsingle, rfl⟩)
  · exact h.outside next (.refl c) hstep (by rintro _ ⟨⟩; exact ⟨hregion, hback, rfl⟩)
  · exact h.outside next (.space (by simp [hslash])) hstep (by rintro _ ⟨⟩)
  · exact h.outside next (.space (by simp [hslash])) hstep (by rintro _ ⟨⟩)
  · exact h.outside next (.refl c) hstep (by rintro _ ⟨⟩; exact ⟨hregion, hslash, rfl⟩)
  · exact h.outside next (.refl c) hstep (by rintro _ ⟨⟩)
  · exact h.outside next (.refl c) hstep (by rintro _ ⟨⟩)

/-- **One character.** -/
theorem step (h : Tracks t (some c) s) (next : Option Char) :
    Tracks (t ++ [c]) next (s.step c next) := by
  have hcomment {shown : Char} {r : Region} (hshown : Shows c shown)
      (hr : ∀ l, r ≠ .literal l) (hstep : s.step c next = s.emit shown r) :
      Tracks (t ++ [c]) next (s.step c next) :=
    h.outside next hshown hstep fun l hl => absurd hl (hr l)
  cases hregion : s.region with
  | code => exact h.readCode next hregion
  | literal l => exact h.readLiteral next hregion
  | lineComment =>
      by_cases hc : c = '\n'
      · exact hcomment (.refl c) (r := .code) (by simp) (by rw [State.step, hregion, if_pos hc])
      · exact hcomment (.space hc) (r := .lineComment) (by simp)
          (by rw [State.step, hregion, if_neg hc])
  | blockOpening =>
      exact hcomment (shows_blankOf c) (r := .blockComment) (by simp) (by rw [State.step, hregion])
  | blockComment =>
      by_cases hc : c = '*' ∧ next = some '/'
      · exact hcomment (.space (by simp [hc.1])) (r := .blockClosing) (by simp)
          (by rw [State.step, hregion, if_pos hc])
      · exact hcomment (shows_blankOf c) (r := .blockComment) (by simp)
          (by rw [State.step, hregion, if_neg hc])
  | blockClosing =>
      exact hcomment (shows_blankOf c) (r := .code) (by simp) (by rw [State.step, hregion])

/-- **A whole text.** -/
theorem readBefore (t : Text) (next : Option Char) :
    Tracks t next (State.start.readBefore next t) := by
  induction t using List.reverseRecOn generalizing next with
  | nil => exact .start next
  | append_singleton t c ih =>
      rw [State.readBefore_append]
      exact (ih (some c)).step next

/-- A literal that is recorded at the end stands in the text. -/
theorem stands (h : Tracks t none s) {l : ScriptLiteral} (hl : l ∈ s.literals) :
    ∃ before behind, Stands t l before behind := by
  have hfound (hl : l ∈ s.found) : ∃ before behind, Stands t l before behind := by
    obtain ⟨before, behind, -, hstands⟩ := h.found l hl
    exact ⟨before, behind, hstands⟩
  rw [State.literals] at hl
  split at hl
  next openLiteral hregion =>
    rcases List.mem_cons.1 (List.mem_reverse.1 hl) with rfl | hl
    · obtain ⟨before, ht, hline, hopens⟩ := h.inside openLiteral hregion
      refine ⟨before, [], by simp [ht, OpenLiteral.ended], ?_, hline, by simp [OpenLiteral.ended]⟩
      simpa [OpenLiteral.ended] using hopens
    · exact hfound hl
  next => exact hfound (List.mem_reverse.1 hl)

end Tracks

end Scan

end Scriptwright
