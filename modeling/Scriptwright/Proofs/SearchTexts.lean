import Mathlib.Algebra.Ring.Parity
import Mathlib.Data.List.Induction
import Scriptwright.Proofs.EscapeRoundTrip

/-!
# Search texts

A search text passes through two readers.  The script decodes the literal that it
stands in, and the application then reads the decoded text from the left, where a
backslash takes the next character literally (`bareChars`).  Against the second
reader `protectSearch` puts a backslash before every special character, and against
the first `escape` doubles that backslash.

Nothing is lost on the way.  The literal decodes to the protected text, without the
NULs (`read_escapeSearch`), and no two texts are protected alike
(`protectSearch_injective`): a special character never begins a protected text, so
whoever sees one knows that the backslash before it was put there.

But protection leaves the backslashes of the text itself alone, and the one it puts
in may be taken by another that stands there already.  Whether the second reader is
about to take a character changes at each backslash and ends with any other
character (`takesNext_iff_odd`).  So **a special character is reached bare exactly if
an odd number of backslashes stands right before it in the text**
(`search_protected_iff`).
-/

namespace Scriptwright

namespace Literal

/-! ## The two readers -/

/-- Protection works character by character. -/
theorem protectSearch_cons (c : Char) (t : Text) :
    protectSearch (c :: t) =
      (if isSearchSpecial c then ['\\', c] else [c]) ++ protectSearch t := by
  simp [protectSearch]

/-- It does not matter whether NULs are left out before or behind it. -/
theorem withoutNul_protectSearch (t : Text) :
    Text.withoutNul (protectSearch t) = protectSearch (Text.withoutNul t) := by
  have hnul : isSearchSpecial '\x00' = false := by decide
  induction t with
  | nil => rfl
  | cons c t ih =>
      rw [protectSearch_cons]
      by_cases hc : c = '\x00'
      · subst hc
        rw [hnul, Text.withoutNul_cons_nul, ← ih]
        exact Text.withoutNul_cons_nul _
      · rw [Text.withoutNul_cons_of_ne hc, protectSearch_cons, ← ih]
        split
        · exact (Text.withoutNul_cons_of_ne (by decide) _).trans
            (congrArg _ (Text.withoutNul_cons_of_ne hc _))
        · exact Text.withoutNul_cons_of_ne hc _

/-- **The literal of a search text** is read whole, and decodes to the protected text. -/
theorem read_quote_protectSearch (q : Text) :
    read? ('"' :: escapeSearch q ++ ['"']) =
      .ok (protectSearch (Text.withoutNul q),
        Text.byteLength ('"' :: escapeSearch q ++ ['"'])) := by
  have hsplit := split_enclose (.inl rfl) (protectSearch q) []
  rw [List.append_nil, withoutNul_protectSearch, enclose, ← escapeSearch] at hsplit
  rw [read?, hsplit]
  rfl

/-! ## Nothing is lost -/

/-- A special character never begins a protected text. -/
theorem head_protectSearch (t : Text) :
    ∀ c ∈ (protectSearch t).head?, isSearchSpecial c = false := by
  have hback : isSearchSpecial '\\' = false := by decide
  intro c hc
  cases t with
  | nil => cases hc
  | cons d t =>
      rw [protectSearch_cons] at hc
      by_cases hd : isSearchSpecial d = true
      · rw [if_pos hd] at hc
        obtain rfl : '\\' = c := by simpa using hc
        exact hback
      · rw [if_neg hd] at hc
        obtain rfl : d = c := by simpa using hc
        simpa using hd

/-- A backslash before a special character was put there. -/
theorem protectSearch_ne_special {c : Char} (hc : isSearchSpecial c = true) (s t : Text) :
    protectSearch t ≠ c :: s := by
  intro h
  have hhead := head_protectSearch t c (by simp [h])
  rw [hc] at hhead
  cases hhead

/-- **No two texts are protected alike.** -/
theorem protectSearch_injective : Function.Injective protectSearch := by
  intro s
  induction s with
  | nil =>
      intro t h
      cases t with
      | nil => rfl
      | cons d t =>
          rw [protectSearch_cons] at h
          split at h <;> cases h
  | cons c s ih =>
      intro t h
      cases t with
      | nil =>
          rw [protectSearch_cons] at h
          split at h <;> cases h
      | cons d t =>
          rw [protectSearch_cons, protectSearch_cons] at h
          by_cases hc : isSearchSpecial c = true
          · by_cases hd : isSearchSpecial d = true
            · rw [if_pos hc, if_pos hd] at h
              obtain ⟨-, rfl, hrest⟩ : '\\' = '\\' ∧ c = d ∧ protectSearch s = protectSearch t := by
                simpa using h
              rw [ih hrest]
            · rw [if_pos hc, if_neg hd] at h
              have hrest : c :: protectSearch s = protectSearch t := (List.cons.inj h).2
              exact absurd hrest.symm (protectSearch_ne_special hc _ _)
          · by_cases hd : isSearchSpecial d = true
            · rw [if_neg hc, if_pos hd] at h
              have hrest : protectSearch s = d :: protectSearch t := (List.cons.inj h).2
              exact absurd hrest (protectSearch_ne_special hd _ _)
            · rw [if_neg hc, if_neg hd] at h
              obtain ⟨rfl, hrest⟩ := List.cons.inj h
              rw [ih hrest]

/-- **Nothing but NULs is lost.**  The literal of a search text is read whole, and its value is the
text without NULs and with a backslash before each special character; two search texts are written
alike exactly if they are the same but for NULs. -/
theorem read_escapeSearch :
    (∀ q : Text, read? ('"' :: escapeSearch q ++ ['"']) =
      .ok ((Text.withoutNul q).flatMap fun c => if c ∈ "()[]*?".toList then ['\\', c] else [c],
        Text.byteLength ('"' :: escapeSearch q ++ ['"']))) ∧
    ∀ p q : Text, escapeSearch p = escapeSearch q ↔ Text.withoutNul p = Text.withoutNul q := by
  constructor
  · intro q
    have hspelled : (Text.withoutNul q).flatMap
        (fun c => if c ∈ "()[]*?".toList then ['\\', c] else [c]) =
          protectSearch (Text.withoutNul q) := by
      simp [protectSearch, isSearchSpecial]
    rw [hspelled]
    exact read_quote_protectSearch q
  · intro p q
    rw [escapeSearch, escapeSearch, escape_eq_iff, withoutNul_protectSearch,
      withoutNul_protectSearch]
    exact protectSearch_injective.eq_iff

/-! ## What is reached bare -/

/-- The characters that the search grammar meets bare: it reads from the left, and a backslash takes
the next character literally.  `taken` says that the first character is taken already. -/
def bareChars (taken : Bool) : Text → Text
  | [] => []
  | c :: rest =>
      if taken then bareChars false rest
      else if c = '\\' then bareChars true rest
      else c :: bareChars false rest

/-- A text in which no special character is met bare. -/
def IsProtected (taken : Bool) (t : Text) : Prop :=
  ∀ c ∈ bareChars taken t, isSearchSpecial c = false

/-- Whether the character behind a text is taken. -/
def takesNext (taken : Bool) (t : Text) : Bool :=
  t.foldl (fun taken c => c == '\\' && !taken) taken

/-- The backslashes at the end of a text. -/
def backslashesAtEnd (t : Text) : Nat := (t.reverse.takeWhile (· == '\\')).length

/-- **A character is taken behind an odd number of backslashes**, and only there. -/
theorem takesNext_iff_odd (t : Text) : takesNext false t = true ↔ Odd (backslashesAtEnd t) := by
  induction t using List.reverseRecOn with
  | nil => decide
  | append_singleton t c ih =>
      have hstep : takesNext false (t ++ [c]) = (c == '\\' && !takesNext false t) := by
        simp [takesNext]
      rw [hstep, backslashesAtEnd, List.reverse_append, List.reverse_singleton,
        List.singleton_append]
      by_cases hc : c = '\\'
      · subst hc
        have hcount : (('\\' :: t.reverse).takeWhile (· == '\\')).length =
            backslashesAtEnd t + 1 := by
          simp [backslashesAtEnd]
        rw [hcount, Nat.odd_add_one, ← ih]
        simp
      · have hcount : ((c :: t.reverse).takeWhile (· == '\\')).length = 0 := by simp [hc]
        rw [hcount]
        simp [hc]

/-- Reading over a backslash of the text. -/
theorem isProtected_backslash (taken : Bool) (t : Text) :
    IsProtected taken (protectSearch ('\\' :: t)) ↔ IsProtected (!taken) (protectSearch t) := by
  have hback : isSearchSpecial '\\' = false := by decide
  rw [protectSearch_cons, hback]
  cases taken
  · rfl
  · rfl

/-- Reading over a special character, which is taken by the backslash put before it unless that one
is taken itself. -/
theorem isProtected_special {c : Char} (hc : isSearchSpecial c = true) (taken : Bool) (t : Text) :
    IsProtected taken (protectSearch (c :: t)) ↔
      taken = false ∧ IsProtected false (protectSearch t) := by
  have hback : c ≠ '\\' := by
    rintro rfl
    revert hc
    decide
  rw [protectSearch_cons, if_pos hc]
  cases taken
  · simp [IsProtected, bareChars]
  · simp [IsProtected, bareChars, hback, hc]

/-- Reading over any other character. -/
theorem isProtected_plain {c : Char} (hc : isSearchSpecial c = false) (hback : c ≠ '\\')
    (taken : Bool) (t : Text) :
    IsProtected taken (protectSearch (c :: t)) ↔ IsProtected false (protectSearch t) := by
  rw [protectSearch_cons, hc]
  cases taken
  · simp [IsProtected, bareChars, hback, hc]
  · simp [IsProtected, bareChars]

/-- A protected text is read with each special character taken, if behind no part of the text
before one of them the reader takes the next. -/
theorem isProtected_protectSearch_iff (taken : Bool) (s : Text) :
    IsProtected taken (protectSearch s) ↔
      ∀ front c back, s = front ++ c :: back → isSearchSpecial c = true →
        takesNext taken front = false := by
  induction s generalizing taken with
  | nil =>
      constructor
      · intro _ front c back h
        simp at h
      · intro _ c hc
        cases hc
  | cons d s ih =>
      -- Behind the first character the reader is where `takesNext` says.
      have hrest : (∀ front c back, s = front ++ c :: back → isSearchSpecial c = true →
          takesNext (d == '\\' && !taken) front = false) ↔
          ∀ front c back, d :: s = (d :: front) ++ c :: back → isSearchSpecial c = true →
            takesNext taken (d :: front) = false := by
        simp [takesNext]
      have hsplit : (∀ front c back, d :: s = front ++ c :: back → isSearchSpecial c = true →
          takesNext taken front = false) ↔
          (isSearchSpecial d = true → taken = false) ∧
          ∀ front c back, d :: s = (d :: front) ++ c :: back → isSearchSpecial c = true →
            takesNext taken (d :: front) = false := by
        constructor
        · intro h
          exact ⟨fun hd => h [] d s rfl hd, fun front c back => h (d :: front) c back⟩
        · rintro ⟨hfirst, hmore⟩ front c back h hc
          cases front with
          | nil =>
              obtain ⟨rfl, -⟩ := List.cons.inj h
              exact hfirst hc
          | cons e front =>
              obtain ⟨rfl, -⟩ := List.cons.inj h
              exact hmore front c back h hc
      rw [hsplit, ← hrest, ← ih]
      by_cases hback : d = '\\'
      · subst hback
        have hplain : isSearchSpecial '\\' = false := by decide
        rw [isProtected_backslash, hplain]
        simp
      · have hstep : (d == '\\' && !taken) = false := by simp [hback]
        rw [hstep]
        by_cases hd : isSearchSpecial d = true
        · rw [isProtected_special hd]
          simp [hd]
        · rw [isProtected_plain (by simpa using hd) hback]
          simp [hd]

/-- **Where the protection of a search text holds.**  The literal of a search text decodes to a text
whose special characters are all taken by a backslash exactly if in the search text, its NULs left
out, no special character stands behind an odd number of backslashes. -/
theorem search_protected_iff (q : Text) :
    ∃ value, read? ('"' :: escapeSearch q ++ ['"']) =
        .ok (value, Text.byteLength ('"' :: escapeSearch q ++ ['"'])) ∧
      (IsProtected false value ↔
        ∀ front c back, Text.withoutNul q = front ++ c :: back → isSearchSpecial c = true →
          Even (backslashesAtEnd front)) := by
  refine ⟨_, read_quote_protectSearch q, ?_⟩
  rw [isProtected_protectSearch_iff]
  simp only [← Nat.not_odd_iff_even, ← takesNext_iff_odd, Bool.not_eq_true]

/-- A parenthesis behind a backslash of the search text is reached bare: the backslash put before it
is taken by the other. -/
theorem search_unprotected_of_backslash :
    read? ('"' :: escapeSearch ['\\', '('] ++ ['"']) = .ok (['\\', '\\', '('], 7) ∧
      ¬ IsProtected false ['\\', '\\', '('] := by
  constructor
  · decide +kernel
  · intro h
    have hparenthesis : '(' ∈ bareChars false ['\\', '\\', '('] := by decide
    exact absurd (h '(' hparenthesis) (by decide)

end Literal

end Scriptwright
