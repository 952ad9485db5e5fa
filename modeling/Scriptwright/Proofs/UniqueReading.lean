import Scriptwright.Literal.Render
import Scriptwright.Proofs.EscapeRoundTrip
import Scriptwright.Proofs.NumberTexts

/-!
# Values are told apart by their literals

The literal of a value shows all of the value but its NULs, the sign of zero and the
kind of not-a-number (`Value.canonical`), and nothing else is lost.

A literal ends where something begins that may stand behind it: a comma, a blank or
a closing bracket (`Stopped`).  `ReadOff` says that before any such text the literal
is that of one value only, and how far it goes.  It holds of words, which have no
such character in them (`word_unique`), and of texts, which end at their own quote
(`quote_unique`); it passes on to lists and maps through the items behind commas
(`separated_unique`), whatever their texts contain.  Which of these a literal is, its
first character says (`opener?_eq_of_append`).

So **two values are written alike exactly if they are the same in all that can be
seen** (`render_eq_iff`).
-/

namespace Scriptwright

namespace Value

mutual

/-- What of a value can be seen in its literal: texts and keys without NULs, numbers without the
sign of zero and with one not-a-number, and a map as the list of its entries. -/
def canonical : Value → Value
  | .null => .null
  | .bool b => .bool b
  | .number n => .number n.canonical
  | .text t => .text (Text.withoutNul t)
  | .list items => .list (canonicalItems items)
  | .map entries => .map (canonicalEntries entries)

/-- What of the items of a list can be seen. -/
def canonicalItems : List Value → List Value
  | [] => []
  | item :: rest => canonical item :: canonicalItems rest

/-- What of the entries of a map can be seen, in their order. -/
def canonicalEntries : List (Text × Value) → List (Text × Value)
  | [] => []
  | (key, value) :: rest => (Text.withoutNul key, canonical value) :: canonicalEntries rest

end

/-- Of a list, what can be seen of each item. -/
theorem canonicalItems_eq_map (items : List Value) :
    canonicalItems items = items.map canonical := by
  induction items with
  | nil => rfl
  | cons item rest ih => rw [canonicalItems, ih, List.map_cons]

/-- What of an entry of a map can be seen. -/
def canonicalEntry (e : Text × Value) : Text × Value := (Text.withoutNul e.1, canonical e.2)

/-- Of a map, what can be seen of each entry. -/
theorem canonicalEntries_eq_map (entries : List (Text × Value)) :
    canonicalEntries entries = entries.map canonicalEntry := by
  induction entries with
  | nil => rfl
  | cons e rest ih => rw [canonicalEntries, ih, List.map_cons, canonicalEntry]

/-- The character that the literal of a text, a list or a map begins with. -/
def opener? : Value → Option Char
  | .text _ => some '"'
  | .list _ => some '['
  | .map _ => some '{'
  | _ => none

end Value

namespace Literal

open Value (canonical canonicalItems canonicalItems_eq_map canonicalEntry canonicalEntries
  canonicalEntries_eq_map opener?)

mutual

/-- **A value is written as what of it can be seen.** -/
theorem render_canonical : ∀ v : Value, render (canonical v) = render v
  | .null => rfl
  | .bool _ => rfl
  | .number n => n.format_canonical
  | .text t => by rw [canonical, render, render, quote, quote, escape_withoutNul]
  | .list items => by rw [canonical, render, render, renderItems_canonicalItems items]
  | .map entries => by rw [canonical, render, render, renderEntries_canonicalEntries entries]

/-- The items of a list are rendered as what can be seen of them. -/
theorem renderItems_canonicalItems :
    ∀ items : List Value, renderItems (canonicalItems items) = renderItems items
  | [] => rfl
  | item :: rest => by
      rw [canonicalItems, renderItems, renderItems, render_canonical item,
        renderItems_canonicalItems rest]

/-- So are the entries of a map: the literal of a key drops its NULs. -/
theorem renderEntries_canonicalEntries :
    ∀ entries : List (Text × Value), renderEntries (canonicalEntries entries) = renderEntries entries
  | [] => rfl
  | (key, value) :: rest => by
      rw [canonicalEntries, renderEntries, renderEntries, render_canonical value,
        renderEntries_canonicalEntries rest, quote, quote, escape_withoutNul]

end

/-! ## Where a literal ends -/

/-- The characters that may stand right behind the literal of a value. -/
def stops : Text := [',', ']', ' ']

/-- A text that may stand behind a literal. -/
def Stopped (r : Text) : Prop := ∀ c ∈ r.head?, c ∈ stops

/-- A text that may stand behind the last literal of several. -/
def Closed (r : Text) : Prop := ∀ c ∈ r.head?, c ∈ [']', ' ']

/-- What may stand behind the last of several literals may stand behind any. -/
theorem Closed.stopped {r : Text} (h : Closed r) : Stopped r := by
  intro c hc
  exact List.mem_cons_of_mem _ (h c hc)

/-- The end of a list and that of a map may. -/
theorem closed_cons {c : Char} (hc : c ∈ [']', ' ']) (r : Text) : Closed (c :: r) := by
  intro d hd
  obtain rfl : c = d := by simpa using hd
  exact hc

/-- A text that holds none of the characters that stand behind literals goes as far as the first of
them. -/
theorem word_unique {s t r r' : Text} (hs : ∀ c ∈ s, c ∉ stops) (ht : ∀ c ∈ t, c ∉ stops)
    (hr : Stopped r) (hr' : Stopped r') (h : s ++ r = t ++ r') : s = t ∧ r = r' := by
  induction s generalizing t with
  | nil =>
      cases t with
      | nil => exact ⟨rfl, h⟩
      | cons d t =>
          obtain rfl : r = d :: (t ++ r') := h
          exact absurd (hr d rfl) (ht d List.mem_cons_self)
  | cons c s ih =>
      cases t with
      | nil =>
          obtain rfl : c :: (s ++ r) = r' := h
          exact absurd (hr' c rfl) (hs c List.mem_cons_self)
      | cons d t =>
          obtain ⟨rfl, hrest⟩ := List.cons.inj h
          obtain ⟨rfl, rfl⟩ := ih (fun e he => hs e (List.mem_cons_of_mem c he))
            (fun e he => ht e (List.mem_cons_of_mem c he)) hrest
          exact ⟨rfl, rfl⟩

/-- A quoted text ends at its own quote, whatever it contains. -/
theorem quote_unique {s t r r' : Text} (h : quote s ++ r = quote t ++ r') :
    Text.withoutNul s = Text.withoutNul t ∧ r = r' := by
  have hsplit := split_enclose (.inl rfl) s r
  rw [← quote_eq_enclose, h, quote_eq_enclose, split_enclose (.inl rfl) t r'] at hsplit
  obtain ⟨htext, hrest⟩ := Prod.mk.inj (Except.ok.inj hsplit)
  exact ⟨htext.symm, hrest.symm⟩

/-! ## Several literals -/

section Separated

variable {α β : Type} {f : α → Text} {g : α → β}

/-- Before any text that may stand behind it, the text of a thing is that of no other thing, as far
as things can be told apart, and it goes as far as this. -/
def ReadOff (f : α → Text) (g : α → β) (a : α) : Prop :=
  ∀ b r r', Stopped r → Stopped r' → f a ++ r = f b ++ r' → g a = g b ∧ r = r'

/-- Texts each with a comma before it. -/
def afterCommas (f : α → Text) (l : List α) : Text := l.flatMap fun a => ',' :: ' ' :: f a

/-- Joined texts are the first, and the others each behind a comma. -/
theorem join_eq_afterCommas (f : α → Text) (a : α) (l : List α) :
    Text.join [',', ' '] ((a :: l).map f) = f a ++ afterCommas f l := by
  induction l generalizing a with
  | nil => simp [afterCommas, Text.join]
  | cons b l ih =>
      have hb : Text.join [',', ' '] (f b :: l.map f) = f b ++ afterCommas f l := ih b
      simp [afterCommas, Text.join, hb]

/-- Behind a literal may stand others, each behind a comma. -/
theorem stopped_afterCommas (f : α → Text) (l : List α) {r : Text} (h : Closed r) :
    Stopped (afterCommas f l ++ r) := by
  cases l with
  | nil => exact h.stopped
  | cons a l =>
      intro c hc
      obtain rfl : ',' = c := by simpa [afterCommas] using hc
      decide

/-- Things behind commas are read off one by one, to the last. -/
theorem afterCommas_unique {l l' : List α} (h : ∀ a ∈ l, ReadOff f g a) {r r' : Text}
    (hr : Closed r) (hr' : Closed r') (heq : afterCommas f l ++ r = afterCommas f l' ++ r') :
    l.map g = l'.map g ∧ r = r' := by
  have hcomma {t u : Text} (ht : Closed t) : t ≠ ',' :: u := by
    rintro rfl
    exact absurd (ht ',' rfl) (by decide)
  induction l generalizing l' with
  | nil =>
      cases l' with
      | nil => exact ⟨rfl, heq⟩
      | cons b l' => exact absurd heq (hcomma hr)
  | cons a l ih =>
      cases l' with
      | nil => exact absurd heq.symm (hcomma hr')
      | cons b l' =>
          have hrest : f a ++ (afterCommas f l ++ r) = f b ++ (afterCommas f l' ++ r') := by
            simpa [afterCommas] using heq
          obtain ⟨hfirst, hmore⟩ := h a List.mem_cons_self b _ _ (stopped_afterCommas f l hr)
            (stopped_afterCommas f l' hr') hrest
          obtain ⟨hlast, hbehind⟩ := ih (fun c hc => h c (List.mem_cons_of_mem a hc)) hmore
          exact ⟨by rw [List.map_cons, List.map_cons, hfirst, hlast], hbehind⟩

/-- **Things separated by commas are read off**, if each of them is. -/
theorem separated_unique {a b : α} {l l' : List α} (h : ∀ c ∈ a :: l, ReadOff f g c) {r r' : Text}
    (hr : Closed r) (hr' : Closed r')
    (heq : Text.join [',', ' '] ((a :: l).map f) ++ r =
      Text.join [',', ' '] ((b :: l').map f) ++ r') :
    (a :: l).map g = (b :: l').map g ∧ r = r' := by
  rw [join_eq_afterCommas, join_eq_afterCommas] at heq
  refine afterCommas_unique h hr hr' ?_
  simpa [afterCommas] using heq

end Separated

/-! ## The kinds of literals -/

/-- The letters and marks of words: truth values, the missing value and numbers. -/
def wordLetters : Text := Numeral.letters ++ "nulltruefalseNaNInfinity".toList

/-- A number is written with such letters. -/
theorem mem_format {x : Binary64} {c : Char} (hc : c ∈ x.format) : c ∈ wordLetters := by
  cases x.writtenNumber with
  | nan hcanonical htext =>
      have hword : ∀ c ∈ "NaN".toList, c ∈ wordLetters := by decide
      exact hword c (htext ▸ hc)
  | infinite negative hcanonical htext =>
      have hword : ∀ c ∈ if negative then "-Infinity".toList else "Infinity".toList,
          c ∈ wordLetters := by
        cases negative <;> decide
      exact hword c (htext ▸ hc)
  | zero hcanonical htext =>
      have hword : ∀ c ∈ ['0'], c ∈ wordLetters := by decide
      exact hword c (htext ▸ hc)
  | numeral n hreadable htext hcanonical hread =>
      rw [← htext] at hc
      exact List.mem_append_left _ (Numeral.mem_text hreadable hc)

/-- A number has a text. -/
theorem format_ne_nil (x : Binary64) : x.format ≠ [] := by
  intro h
  have hnone : Binary64.read? [] = none := by decide +kernel
  have hread := x.read?_format
  rw [h, hnone] at hread
  cases hread

/-- What has no opening character is written as a word. -/
theorem render_word {v : Value} (h : opener? v = none) :
    render v ≠ [] ∧ ∀ c ∈ render v, c ∈ wordLetters := by
  cases v with
  | null => decide
  | bool b => cases b <;> decide
  | number n => exact ⟨format_ne_nil n, fun c hc => mem_format hc⟩
  | text t => cases h
  | list items => cases h
  | map entries => cases h

/-- **The first character of a literal says what it is**, and is none that stands behind
literals. -/
theorem render_eq_cons (v : Value) :
    ∃ c t, render v = c :: t ∧ c ∉ stops ∧
      opener? v = if c ∈ ['"', '[', '{'] then some c else none := by
  cases hopener : opener? v with
  | none =>
      have hletters : ∀ c ∈ wordLetters, c ∉ stops ∧ c ∉ ['"', '[', '{'] := by decide
      obtain ⟨hne, hword⟩ := render_word hopener
      obtain ⟨c, t, hct⟩ := List.exists_cons_of_ne_nil hne
      obtain ⟨hstop, hopen⟩ := hletters c (hword c (by rw [hct]; exact List.mem_cons_self))
      exact ⟨c, t, hct, hstop, by rw [if_neg hopen]⟩
  | some c =>
      cases v with
      | text t => exact ⟨'"', _, rfl, by decide, hopener.symm⟩
      | list items => exact ⟨'[', _, rfl, by decide, hopener.symm⟩
      | map entries =>
          refine ⟨'{', (braces (renderEntries entries)).tail, ?_, by decide, hopener.symm⟩
          rw [render, braces]
          split <;> rfl
      | _ => cases hopener

/-- Literals that begin alike are of one kind. -/
theorem opener?_eq_of_append {v w : Value} {r r' : Text} (h : render v ++ r = render w ++ r') :
    opener? v = opener? w := by
  obtain ⟨c, t, hc, -, hv⟩ := render_eq_cons v
  obtain ⟨d, u, hd, -, hw⟩ := render_eq_cons w
  rw [hc, hd] at h
  obtain ⟨rfl, -⟩ := List.cons.inj h
  rw [hv, hw]

/-- The value that a word stands for. -/
def readWord? (t : Text) : Option Value :=
  if t = "null".toList then some .null
  else if t = "true".toList then some (.bool true)
  else if t = "false".toList then some (.bool false)
  else (Binary64.read? t).map .number

/-- **A word says which value it is**, as far as can be seen. -/
theorem readWord?_render {v : Value} (h : opener? v = none) :
    readWord? (render v) = some (canonical v) := by
  cases v with
  | null => rfl
  | bool b => cases b <;> rfl
  | number n =>
      have hread := n.read?_format
      have hne {t : Text} (ht : Binary64.read? t = none) : n.format ≠ t := by
        intro hsame
        rw [hsame, ht] at hread
        cases hread
      have hnull : n.format ≠ "null".toList := hne (by decide +kernel)
      have htrue : n.format ≠ "true".toList := hne (by decide +kernel)
      have hfalse : n.format ≠ "false".toList := hne (by decide +kernel)
      rw [render, readWord?, if_neg hnull, if_neg htrue, if_neg hfalse, hread]
      rfl
  | text t => cases h
  | list items => cases h
  | map entries => cases h

/-! ## Reading off values -/

/-- The items of a list are rendered one by one. -/
theorem renderItems_eq_map (items : List Value) : renderItems items = items.map render := by
  induction items with
  | nil => rfl
  | cons item rest ih => rw [renderItems, ih, List.map_cons]

/-- An entry of a map as it is written. -/
def renderEntry (e : Text × Value) : Text := quote e.1 ++ ':' :: ' ' :: render e.2

/-- So are the entries of a map. -/
theorem renderEntries_eq_map (entries : List (Text × Value)) :
    renderEntries entries = entries.map renderEntry := by
  induction entries with
  | nil => rfl
  | cons e rest ih => rw [renderEntries, ih, List.map_cons, renderEntry]

/-- A value without an opening character is a word. -/
theorem readOff_word {v : Value} (hv : opener? v = none) : ReadOff render canonical v := by
  have hletters : ∀ c ∈ wordLetters, c ∉ stops := by decide
  have hword {w : Value} (hw : opener? w = none) : ∀ c ∈ render w, c ∉ stops :=
    fun c hc => hletters c ((render_word hw).2 c hc)
  intro w r r' hr hr' h
  have hw : opener? w = none := by rw [← opener?_eq_of_append h, hv]
  obtain ⟨hsame, hrest⟩ := word_unique (hword hv) (hword hw) hr hr' h
  have hread := readWord?_render hv
  rw [hsame, readWord?_render hw] at hread
  exact ⟨(Option.some.inj hread).symm, hrest⟩

/-- The literal of a text ends at its closing quote, so it is read off. -/
theorem readOff_text (t : Text) : ReadOff render canonical (.text t) := by
  intro w r r' _ _ h
  have hkind := opener?_eq_of_append h
  cases w with
  | text u =>
      obtain ⟨htext, hrest⟩ := quote_unique h
      exact ⟨by rw [canonical, canonical, htext], hrest⟩
  | _ => cases hkind

/-- The closing bracket is not taken for an item. -/
theorem render_append_ne_bracket (v : Value) (r r' : Text) : render v ++ r ≠ ']' :: r' := by
  obtain ⟨c, t, hc, hstop, -⟩ := render_eq_cons v
  rw [hc]
  intro h
  obtain ⟨rfl, -⟩ := List.cons.inj h
  exact hstop (by decide)

/-- A list is read off if its items are. -/
theorem readOff_list {items : List Value} (h : ∀ v ∈ items, ReadOff render canonical v) :
    ReadOff render canonical (.list items) := by
  have hclosed (r : Text) : Closed (']' :: r) := closed_cons (by decide) r
  have hitem (v : Value) (more : List Value) (r r' : Text) :
      Text.join [',', ' '] ((v :: more).map render) ++ r ≠ ']' :: r' := by
    rw [join_eq_afterCommas, List.append_assoc]
    exact render_append_ne_bracket v _ r'
  intro w r r' _ _ heq
  have hkind := opener?_eq_of_append heq
  cases w with
  | list others =>
      have hinner : Text.join [',', ' '] (items.map render) ++ ']' :: r =
          Text.join [',', ' '] (others.map render) ++ ']' :: r' := by
        simpa [render, brackets, renderItems_eq_map] using heq
      rw [canonical, canonical, canonicalItems_eq_map, canonicalItems_eq_map]
      cases items with
      | nil =>
          cases others with
          | nil => exact ⟨rfl, (List.cons.inj hinner).2⟩
          | cons w more => exact absurd hinner.symm (hitem w more _ _)
      | cons v more =>
          cases others with
          | nil => exact absurd hinner (hitem v more _ _)
          | cons w others =>
              obtain ⟨hsame, hrest⟩ := separated_unique h (hclosed r) (hclosed r') hinner
              exact ⟨by rw [hsame], (List.cons.inj hrest).2⟩
  | _ => cases hkind

/-- An entry is read off if its value is: the key is a text. -/
theorem readOff_entry {e : Text × Value} (h : ReadOff render canonical e.2) :
    ReadOff renderEntry canonicalEntry e := by
  intro e' r r' hr hr' heq
  have hkeys : quote e.1 ++ (':' :: ' ' :: (render e.2 ++ r)) =
      quote e'.1 ++ (':' :: ' ' :: (render e'.2 ++ r')) := by
    simpa [renderEntry] using heq
  obtain ⟨hkey, hvalues⟩ := quote_unique hkeys
  obtain ⟨hvalue, hrest⟩ := h e'.2 r r' hr hr' (List.cons.inj (List.cons.inj hvalues).2).2
  exact ⟨by rw [canonicalEntry, canonicalEntry, hkey, hvalue], hrest⟩

/-- A map is read off if its values are. -/
theorem readOff_map {entries : List (Text × Value)}
    (h : ∀ e ∈ entries, ReadOff render canonical e.2) :
    ReadOff render canonical (.map entries) := by
  have hclosed (r : Text) : Closed (' ' :: '}' :: r) := closed_cons (by decide) _
  intro w r r' _ _ heq
  have hkind := opener?_eq_of_append heq
  cases w with
  | map others =>
      rw [canonical, canonical, canonicalEntries_eq_map, canonicalEntries_eq_map]
      rw [render, render, renderEntries_eq_map, renderEntries_eq_map] at heq
      -- Braces without entries stand together, others have a blank between them.
      cases entries with
      | nil =>
          cases others with
          | nil => exact ⟨rfl, by simpa [braces] using heq⟩
          | cons e others => simp [braces] at heq
      | cons e more =>
          cases others with
          | nil => simp [braces] at heq
          | cons e' others =>
              have hinner : Text.join [',', ' '] ((e :: more).map renderEntry) ++ ' ' :: '}' :: r =
                  Text.join [',', ' '] ((e' :: others).map renderEntry) ++ ' ' :: '}' :: r' := by
                simpa [braces] using heq
              obtain ⟨hsame, hrest⟩ := separated_unique (fun e he => readOff_entry (h e he))
                (hclosed r) (hclosed r') hinner
              exact ⟨by rw [hsame], (List.cons.inj (List.cons.inj hrest).2).2⟩
  | _ => cases hkind

mutual

/-- **The literal of a value is read off**, whatever stands behind it. -/
theorem readOff_render : ∀ v : Value, ReadOff render canonical v
  | .null => readOff_word rfl
  | .bool _ => readOff_word rfl
  | .number _ => readOff_word rfl
  | .text t => readOff_text t
  | .list items => readOff_list (readOff_items items)
  | .map entries => readOff_map (readOff_entries entries)

/-- Every item of a list is read off. -/
theorem readOff_items : ∀ items : List Value, ∀ v ∈ items, ReadOff render canonical v
  | [] => by simp
  | item :: rest => List.forall_mem_cons.2 ⟨readOff_render item, readOff_items rest⟩

/-- So is every value in a map. -/
theorem readOff_entries :
    ∀ entries : List (Text × Value), ∀ e ∈ entries, ReadOff render canonical e.2
  | [] => by simp
  | (_, value) :: rest => List.forall_mem_cons.2 ⟨readOff_render value, readOff_entries rest⟩

end

/-- **Values are written alike exactly if they are the same in all that can be seen**, at any
depth: texts and keys without their NULs, numbers without the sign of zero and with one
not-a-number, and maps as the lists of their entries. -/
theorem render_eq_iff (v w : Value) : render v = render w ↔ canonical v = canonical w := by
  constructor
  · intro h
    have hend : Stopped [] := fun c hc => by cases hc
    exact (readOff_render v w [] [] hend hend (by rw [h])).1
  · intro h
    rw [← render_canonical v, ← render_canonical w, h]

end Literal

end Scriptwright
