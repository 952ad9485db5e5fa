import Scriptwright.Proofs.SealedContent

/-!
# Where a sealed text is read to

Sealing keeps the escape sequences that are written in a text, and with them
whatever an author got wrong about them: a `\x` without digits, half a pair of
surrogates, a brace that is never closed.  Such a text is refused by the literal
reader.  But it is not read otherwise than it was meant.

What the reader takes up to a closing quote is the inside of a string
(`Literal.Body`), and so is a sealed text.  Two insides that stand at the same
place, each with the quote behind it, are the same (`Held.eq_of_body`): both are
walked through in the same steps, of one character or of a backslash and a
character, and the quote is no step of either.  Hence **a literal of a sealed text
ends at its own closing quote or is refused** (`sealed_read`), whatever follows.
-/

namespace Scriptwright

namespace Literal

/-! ## What sealing leaves out -/

theorem isEscapable_of_mem_sealChar {c d : Char} (h : d ∈ sealChar c) : isEscapable d = true := by
  have hletters : ∀ text ∈ [['\\', '"'], ['\\', 'n'], ['\\', 'r'], "\\u2028".toList,
      "\\u2029".toList], ∀ d ∈ text, isEscapable d = true := by decide
  unfold sealChar at h
  split_ifs at h with hquote hfeed hreturn hline hparagraph hnul
  · exact hletters _ (by decide) d h
  · exact hletters _ (by decide) d h
  · exact hletters _ (by decide) d h
  · exact hletters _ (by decide) d h
  · exact hletters _ (by decide) d h
  · cases h
  · obtain rfl := List.mem_singleton.1 h
    simp [isEscapable, isLineTerminator, *]

/-- **A sealed text has no line end and no NUL.** -/
theorem isEscapable_of_mem_sealContent {t : Text} {d : Char} (h : d ∈ sealContent t) :
    isEscapable d = true := by
  have hback : isEscapable '\\' = true := by decide
  induction t using sealContent.induct with
  | case1 => cases h
  | case2 =>
      obtain rfl : d = '\\' := by simpa [sealContent] using h
      exact hback
  | case3 next rest hkeep ih =>
      rw [sealContent, if_pos hkeep] at h
      simp only [List.mem_cons] at h
      rcases h with rfl | rfl | h
      · exact hback
      · exact hkeep
      · exact ih h
  | case4 next rest hkeep ih =>
      rw [sealContent, if_neg hkeep] at h
      simp only [List.mem_cons] at h
      rcases h with rfl | rfl | h
      · exact hback
      · exact hback
      · exact ih h
  | case5 c rest hlone hpair ih =>
      rw [sealContent.eq_4 c rest hlone hpair] at h
      rcases List.mem_append.1 h with h | h
      · exact isEscapable_of_mem_sealChar h
      · exact ih h

theorem isEscapable_iff {c : Char} :
    isEscapable c = true ↔ isLineTerminator c = false ∧ c ≠ '\x00' := by
  simp [isEscapable]

/-! ## One inside at a place -/

variable {mark : Char}

/-- The first step through the inside of a string: there is none, or a plain character, or a
backslash and a character.  Behind that the inside goes on, unless the character is a carriage
return. -/
theorem Body.first_step {body : Text} (h : Body mark body) :
    body = [] ∨ (∃ c t, body = c :: t ∧ c ≠ mark ∧ c ≠ '\\' ∧ Body mark t) ∨
      ∃ c t, body = '\\' :: c :: t ∧ (c = '\r' ∨ Body mark t) := by
  cases h with
  | held h =>
      cases h with
      | nil => exact .inl rfl
      | plain hmark hback _ rest => exact .inr (.inl ⟨_, _, rfl, hmark, hback, .held rest⟩)
      | escaped c rest => exact .inr (.inr ⟨c, _, rfl, .inr (.held rest)⟩)
  | broken h rest =>
      cases h with
      | nil => exact .inr (.inr ⟨'\r', '\n' :: rest, rfl, .inl rfl⟩)
      | plain hmark hback _ held =>
          exact .inr (.inl ⟨_, _, rfl, hmark, hback, .broken held rest⟩)
      | escaped c held => exact .inr (.inr ⟨c, _, rfl, .inr (.broken held rest)⟩)

/-- **Two insides at the same place**, each before the quote, are the same. -/
theorem Held.eq_of_body (hmark : mark ≠ '\\') {t body rest behind : Text} (ht : Held mark t)
    (hreturn : '\r' ∉ t) (hbody : Body mark body)
    (h : t ++ mark :: rest = body ++ mark :: behind) : t = body ∧ rest = behind := by
  induction ht generalizing body with
  | nil =>
      rcases hbody.first_step with rfl | ⟨c, u, rfl, hc, -, -⟩ | ⟨c, u, rfl, -⟩
      · exact ⟨rfl, (List.cons.inj h).2⟩
      · exact absurd (List.cons.inj h).1.symm hc
      · exact absurd (List.cons.inj h).1 hmark
  | @plain c t hc hback _ _ ih =>
      rcases hbody.first_step with rfl | ⟨d, u, rfl, -, -, hu⟩ | ⟨d, u, rfl, -⟩
      · exact absurd (List.cons.inj h).1 hc
      · obtain ⟨rfl, hrest⟩ := List.cons.inj h
        obtain ⟨rfl, hsame⟩ := ih (fun hmem => hreturn (List.mem_cons_of_mem _ hmem)) hu hrest
        exact ⟨rfl, hsame⟩
      · exact absurd (List.cons.inj h).1 hback
  | @escaped c t _ ih =>
      simp only [List.mem_cons, not_or] at hreturn
      rcases hbody.first_step with rfl | ⟨d, u, rfl, -, hd, -⟩ | ⟨d, u, rfl, hu⟩
      · exact absurd (List.cons.inj h).1.symm hmark
      · exact absurd (List.cons.inj h).1.symm hd
      · obtain ⟨rfl, hrest⟩ := List.cons.inj (List.cons.inj h).2
        have hinside : Body mark u := hu.resolve_left (Ne.symm hreturn.2.1)
        obtain ⟨rfl, hsame⟩ := ih hreturn.2.2 hinside hrest
        exact ⟨rfl, hsame⟩

/-- **A literal of a sealed text ends at its own closing quote, or is refused.**  The sealed text
has no line end and no NUL; and if the reader accepts it between double quotes, before whatever
text, it takes the bytes of the sealed text and of the two quotes, and leaves what follows. -/
theorem sealed_read (pattern rest : Text) :
    (∀ c ∈ sealContent pattern, isLineTerminator c = false ∧ c ≠ '\x00') ∧
      ∀ value used, read? ('"' :: sealContent pattern ++ '"' :: rest) = .ok (value, used) →
        used = Text.byteLength (sealContent pattern) + 2 ∧
          split? ('"' :: sealContent pattern ++ '"' :: rest) = .ok (value, rest) := by
  have hclean : ∀ c ∈ sealContent pattern, isLineTerminator c = false ∧ c ≠ '\x00' :=
    fun c hc => isEscapable_iff.1 (isEscapable_of_mem_sealContent hc)
  refine ⟨hclean, fun value used hread => ?_⟩
  have hreturn : '\r' ∉ sealContent pattern := fun hmem =>
    absurd (hclean '\r' hmem).1 (by decide)
  rw [read?] at hread
  split at hread
  next => cases hread
  next value' behind hsplit =>
    obtain ⟨rfl, rfl⟩ := Prod.mk.inj (Except.ok.inj hread)
    have hinside := hsplit
    rw [List.cons_append, split?, if_pos (.inl rfl)] at hinside
    obtain ⟨body, htext, hbody⟩ := exists_body_of_readBody (.inl rfl) hinside
    obtain ⟨-, rfl⟩ :=
      (sealed_sealContent pattern).held.eq_of_body (by decide) hreturn hbody htext
    have hsize : '"'.utf8Size = 1 := rfl
    refine ⟨?_, hsplit⟩
    simp only [List.cons_append, Text.byteLength, Text.byteLength_append, hsize]
    omega

/-- A pattern with a bare quote, an escaped one, and a backslash at its end. -/
theorem sealed_read_quotes :
    let pattern : Text := "a\"\\\"\\u\x7b62\x7d\\".toList
    let rest : Text := "\" + \"\x7d".toList
    read? ('"' :: sealContent pattern ++ '"' :: rest) = .ok ("a\"\"b\\".toList, 15) ∧
      15 = Text.byteLength (sealContent pattern) + 2 ∧
        split? ('"' :: sealContent pattern ++ '"' :: rest) = .ok ("a\"\"b\\".toList, rest) := by
  intro pattern rest
  have hread : read? ('"' :: sealContent pattern ++ '"' :: rest) =
      .ok ("a\"\"b\\".toList, 15) := by decide +kernel
  exact ⟨hread, (sealed_read pattern rest).2 _ _ hread⟩

end Literal

end Scriptwright
