import Scriptwright.Literal.Escape
import Scriptwright.Proofs.LiteralEnds

/-!
# What stands safely between two quotes

A text is sealed if the scanner, standing in a string between double quotes, is
still in it at the end with no escape pending and was never cut off: it consists
of characters that are neither a quote nor a backslash nor a line feed, and of
pairs of a backslash and another character that is no line feed.  In other words,
it is held between double quotes (`Literal.Held`) and has no line feed.

Everything that is written into a script as the content of a literal is sealed,
be it any text escaped (`sealed_escape`) or any text that claims to be content
already (`sealed_sealContent`); an escaped text is held between single quotes as
well (`held_escape`).  And **such a text between quotes is read as one literal,
whatever it says** (`State.readBefore_string`): the code shows the quotes and
blanks between them.  Plain text around it, without quotes and slashes, is shown
as it stands (`State.readBefore_plain`).
-/

namespace Scriptwright

namespace Literal

/-- Text that neither ends a double-quoted literal nor is cut off in it. -/
inductive Sealed : Text → Prop where
  | nil : Sealed []
  | plain {c : Char} {t : Text} (hquote : c ≠ '"') (hslash : c ≠ '\\') (hfeed : c ≠ '\n')
      (rest : Sealed t) : Sealed (c :: t)
  | escaped {c : Char} {t : Text} (hfeed : c ≠ '\n') (rest : Sealed t) : Sealed ('\\' :: c :: t)

/-- A sealed text has no line feed. -/
theorem Sealed.no_feed {t : Text} (h : Sealed t) : '\n' ∉ t := by
  induction h with
  | nil => exact List.not_mem_nil
  | plain _ _ hfeed _ ih => simp [Ne.symm hfeed, ih]
  | escaped hfeed _ ih => simp [Ne.symm hfeed, ih]

/-- Sealed is what is held between double quotes and has no line feed. -/
theorem Sealed.held {t : Text} (h : Sealed t) : Held '"' t := by
  induction h with
  | nil => exact .nil
  | plain hquote hslash hfeed _ ih => exact .plain hquote hslash hfeed ih
  | escaped _ _ ih => exact .escaped _ ih

/-- What is held between double quotes is sealed if it has no line feed. -/
theorem sealed_of_held {t : Text} (h : Held '"' t) (hfeed : '\n' ∉ t) : Sealed t := by
  induction h with
  | nil => exact .nil
  | plain hmark hback hc _ ih =>
      exact .plain hmark hback hc (ih fun hmem => hfeed (List.mem_cons_of_mem _ hmem))
  | escaped c _ ih =>
      simp only [List.mem_cons, not_or] at hfeed
      exact .escaped (Ne.symm hfeed.2.1) (ih hfeed.2.2)

/-- Sealed texts may be put together. -/
theorem Sealed.append {t u : Text} (ht : Sealed t) (hu : Sealed u) : Sealed (t ++ u) := by
  refine sealed_of_held (ht.held.append hu.held) ?_
  rw [List.mem_append, not_or]
  exact ⟨ht.no_feed, hu.no_feed⟩

/-! ## What is written -/

variable {mark : Char}

/-- The two escapes of the line separators. -/
theorem held_separator (hmark : mark = '"' ∨ mark = '\'') {digit : Char}
    (h : digit = '8' ∨ digit = '9') : Held mark ['\\', 'u', '2', '0', '2', digit] := by
  rcases h with rfl | rfl <;> exact .escaped 'u' (held_of_isInnerChar hmark (by decide))

/-- A character that is escaped is held between quotes of either kind, on its line. -/
theorem held_escapeChar (hmark : mark = '"' ∨ mark = '\'') (c : Char) :
    Held mark (escapeChar c) ∧ '\n' ∉ escapeChar c := by
  by_cases h1 : c = '\\'
  · subst h1; exact ⟨.escaped _ .nil, by decide⟩
  by_cases h2 : c = '"'
  · subst h2; exact ⟨.escaped _ .nil, by decide⟩
  by_cases h3 : c = '\''
  · subst h3; exact ⟨.escaped _ .nil, by decide⟩
  by_cases h4 : c = '\n'
  · subst h4; exact ⟨.escaped _ .nil, by decide⟩
  by_cases h5 : c = '\r'
  · subst h5; exact ⟨.escaped _ .nil, by decide⟩
  by_cases h6 : c = '\t'
  · subst h6; exact ⟨.escaped _ .nil, by decide⟩
  by_cases h7 : c = '\x0C'
  · subst h7; exact ⟨.escaped _ .nil, by decide⟩
  by_cases h8 : c = '\x0B'
  · subst h8; exact ⟨.escaped _ .nil, by decide⟩
  by_cases h9 : c = '\u2028'
  · subst h9; exact ⟨held_separator hmark (.inl rfl), by decide⟩
  by_cases h10 : c = '\u2029'
  · subst h10; exact ⟨held_separator hmark (.inr rfl), by decide⟩
  by_cases h11 : c = '\x00'
  · subst h11; exact ⟨.nil, by decide⟩
  · have hself : escapeChar c = [c] := by
      simp [escapeChar, h1, h2, h3, h4, h5, h6, h7, h8, h9, h10, h11]
    have hne : c ≠ mark := by rcases hmark with rfl | rfl <;> assumption
    rw [hself]
    exact ⟨.plain hne h1 h4 .nil, by simpa using Ne.symm h4⟩

/-- **Escaped text is held** between quotes of either kind. -/
theorem held_escape (hmark : mark = '"' ∨ mark = '\'') (t : Text) : Held mark (escape t) := by
  induction t with
  | nil => exact .nil
  | cons c t ih =>
      rw [escape_cons]
      exact (held_escapeChar hmark c).1.append ih

/-- Escaping leaves no line feed. -/
theorem no_feed_escape (t : Text) : '\n' ∉ escape t := by
  simp only [escape, List.mem_flatMap, not_exists, not_and]
  exact fun c _ => (held_escapeChar (.inl rfl) c).2

/-- **Escaped text is sealed.** -/
theorem sealed_escape (t : Text) : Sealed (escape t) :=
  sealed_of_held (held_escape (.inl rfl) t) (no_feed_escape t)

/-- A character that is not the backslash is sealed by itself. -/
theorem sealed_sealChar {c : Char} (h : c ≠ '\\') : Sealed (sealChar c) := by
  unfold sealChar
  split_ifs with hquote hfeed
  · exact .escaped (by decide) .nil
  · exact .escaped (by decide) .nil
  · exact .escaped (by decide) .nil
  · exact sealed_of_held (held_separator (.inl rfl) (.inl rfl)) (by decide)
  · exact sealed_of_held (held_separator (.inl rfl) (.inr rfl)) (by decide)
  · exact .nil
  · exact .plain hquote h hfeed .nil

/-- What can be escaped is no line feed. -/
theorem ne_feed_of_isEscapable {c : Char} (h : isEscapable c = true) : c ≠ '\n' := by
  rintro rfl
  exact absurd h (by decide)

/-- **Content with its loose ends closed is sealed.** -/
theorem sealed_sealContent (t : Text) : Sealed (sealContent t) := by
  induction t using sealContent.induct with
  | case1 => exact .nil
  | case2 => exact .escaped (by decide) .nil
  | case3 next rest hkeep ih =>
      rw [sealContent, if_pos hkeep]
      exact .escaped (ne_feed_of_isEscapable hkeep) ih
  | case4 next rest hkeep ih =>
      rw [sealContent, if_neg hkeep]
      exact .escaped (by decide) ih
  | case5 c rest hlone hpair ih =>
      have hslash : c ≠ '\\' := by
        rintro rfl
        cases rest with
        | nil => exact hlone rfl rfl
        | cons next rest => exact hpair next rest rfl rfl
      rw [sealContent.eq_4 c rest hlone hpair]
      exact (sealed_sealChar hslash).append ih

end Literal

namespace Scan

open Literal (Held Sealed)

/-- A text on one line is blanked to as many spaces. -/
theorem map_blankOf {t : Text} (h : '\n' ∉ t) : t.map blankOf = List.replicate t.length ' ' := by
  refine List.eq_replicate_iff.2 ⟨List.length_map .., fun c hc => ?_⟩
  obtain ⟨d, hd, rfl⟩ := List.mem_map.1 hc
  have hne : d ≠ '\n' := by rintro rfl; exact h hd
  exact if_neg hne

/-- Without a line feed in it a text ends no line. -/
theorem feeds_of_not_mem {t : Text} (h : '\n' ∉ t) : Text.feeds t = 0 := List.count_eq_zero.2 h

/-- **A held text on one line, between quotes, is one literal.**  The code gets the quotes, with a
blank for each character between them. -/
theorem State.readBefore_string {kind : LiteralKind} (hquoted : kind.isQuoted = true)
    {content : Text} (h : Held kind.delimiter content) (hfeed : '\n' ∉ content) (s : State)
    (hs : s.region = .code) (next : Option Char) :
    s.readBefore next (kind.delimiter :: content ++ [kind.delimiter]) =
      ⟨.code, s.line, kind.delimiter :: List.replicate content.length ' ' ++
          kind.delimiter :: s.codeReversed,
        ⟨kind, s.line, content, false, true⟩ :: s.found⟩ := by
  rw [State.readBefore_enclosed hquoted h s hs, map_blankOf hfeed, List.reverse_replicate,
    feeds_of_not_mem hfeed]
  rfl

/-- **So is a sealed text**, between double quotes. -/
theorem State.readBefore_quoted {content : Text} (h : Sealed content) (s : State)
    (hs : s.region = .code) (next : Option Char) :
    s.readBefore next ('"' :: content ++ ['"']) =
      ⟨.code, s.line, '"' :: List.replicate content.length ' ' ++ '"' :: s.codeReversed,
        ⟨.double, s.line, content, false, true⟩ :: s.found⟩ := by
  have hquoted : LiteralKind.double.isQuoted = true := rfl
  exact State.readBefore_string hquoted h.held h.no_feed s hs next

/-- A character that opens neither a literal nor a comment. -/
def isPlain (c : Char) : Bool := c != '"' && c != '\'' && c != '\x60' && c != '/'

/-- Plain text in code goes into the code as it stands. -/
theorem State.readBefore_plain {t : Text} (h : t.all isPlain = true) (s : State)
    (hs : s.region = .code) (next : Option Char) :
    s.readBefore next t =
      ⟨.code, s.line + Text.feeds t, t.reverse ++ s.codeReversed, s.found⟩ := by
  induction t generalizing s with
  | nil =>
      rw [State.readBefore, ← hs]
      rfl
  | cons c t ih =>
      rw [List.all_cons, Bool.and_eq_true] at h
      obtain ⟨hc, ht⟩ := h
      have hstep (ahead : Option Char) : s.step c ahead = s.emit c .code := by
        simp only [isPlain, bne_iff_ne, ne_eq, Bool.and_eq_true] at hc
        rw [State.step, hs]
        simp [State.readCode, hc]
      have hline : (s.emit c .code).line + Text.feeds t = s.line + Text.feeds (c :: t) := by
        by_cases hfeed : c = '\n'
        · simp [State.emit, Text.feeds, hfeed, Nat.add_comm, Nat.add_left_comm]
        · simp [State.emit, Text.feeds, hfeed]
      rw [State.readBefore, hstep, ih ht _ rfl, hline, List.reverse_cons, List.append_assoc]
      rfl

end Scan

end Scriptwright
