import Tether.Toml.Written

/-!
# Strings read back

A string is written in one of five forms, and each form is read back as the string, whatever
stands on the lines after it (`Toml.string?_writeString`).

A form with escapes is followed character by character : a character is written by a short
escape, by its number or as itself (`Toml.spelling_basicChar`), and read back in each case. Quotes
need a look ahead where the form runs over several lines, since three of them in a row would
close it. Of quotes in a row the basic form escapes every third one, and the literal form is only
chosen for strings in which there are never three, so a quote that is followed by two more is one
of the last two of the string.
-/

namespace Tether.Toml

/-! ## Escapes -/

theorem hexDigit?_hexDigit : ∀ n < 16, hexDigit? (hexDigit n) = some n := by decide

theorem isControl_iff {c : Char} :
    isControl c = true ↔ (c.toNat < 0x20 ∧ c ≠ '\t') ∨ c.toNat = 0x7f := by
  simp [isControl]

/-- The number of a control character is read back as the character. -/
theorem codePoint?_numbered {c : Char} (h : isControl c = true) :
    codePoint? ['0', '0', hexDigit (c.toNat / 16), hexDigit (c.toNat % 16)] = some c := by
  have hsmall : c.toNat < 128 := by
    rcases isControl_iff.mp h with ⟨hlt, -⟩ | heq <;> omega
  have hhigh := hexDigit?_hexDigit (c.toNat / 16) (by omega)
  have hlow := hexDigit?_hexDigit (c.toNat % 16) (by omega)
  have hzero : hexDigit? '0' = some 0 := by decide
  have hnumber : hexNumber? 0 ['0', '0', hexDigit (c.toNat / 16), hexDigit (c.toNat % 16)] =
      some c.toNat := by
    simp only [hexNumber?, hzero, hhigh, hlow, Option.bind_some, Option.some.injEq]
    omega
  have hvalid : c.toNat.isValidChar := c.valid
  rw [codePoint?, hnumber]
  simp only [hvalid, ↓reduceIte, Char.ofNat_toNat]

/-- How a character can be written in a basic string, where `long` is whether line feeds stand
for themselves. -/
inductive Spelling (long : Bool) (c : Char) : List Char → Prop
  | escape (e : Char) (h : shortEscape? e = some c) (hu : e ≠ 'u') (hU : e ≠ 'U')
    (hblank : isBlank e = false) (hfeed : e ≠ '\n') (hreturn : e ≠ '\r') :
    Spelling long c ['\\', e]
  | lineFeed (hlong : long = true) (hc : c = '\n') : Spelling long c ['\n']
  | number (h : isControl c = true) : Spelling long c (numbered c)
  | plain (h : isControl c = false) (hslash : c ≠ '\\') : Spelling long c [c]

theorem spelling_basicChar (long : Bool) (c : Char) : Spelling long c (basicChar long c) := by
  have hescape (e : Char) (h : shortEscape? e = some c)
      (he : e ≠ 'u' ∧ e ≠ 'U' ∧ isBlank e = false ∧ e ≠ '\n' ∧ e ≠ '\r') :
      Spelling long c ['\\', e] :=
    .escape e h he.1 he.2.1 he.2.2.1 he.2.2.2.1 he.2.2.2.2
  unfold basicChar
  split
  · exact hescape 'b' (by subst_vars; rfl) (by decide)
  split
  · exact hescape 't' (by subst_vars; rfl) (by decide)
  split
  · split
    · exact .lineFeed ‹_› ‹_›
    · exact hescape 'n' (by subst_vars; rfl) (by decide)
  split
  · exact hescape 'f' (by subst_vars; rfl) (by decide)
  split
  · exact hescape 'r' (by subst_vars; rfl) (by decide)
  split
  · exact hescape '\\' (by subst_vars; rfl) (by decide)
  split
  · exact .number ‹_›
  · exact .plain (by simpa using ‹¬isControl c = true›) ‹_›

/-! ## Basic strings -/

theorem basic?_escape {e : Char} (hu : e ≠ 'u') (hU : e ≠ 'U') (r : List Char) :
    basic? ('\\' :: e :: r) = prepend (shortEscape? e) (basic? r) := by
  rw [basic?.eq_def]
  simp [hu, hU]

theorem basic?_plain {c : Char} (hquote : c ≠ '"') (hslash : c ≠ '\\')
    (h : isControl c = false) (r : List Char) :
    basic? (c :: r) = prepend (some c) (basic? r) := by
  rw [basic?.eq_def]
  simp [hquote, hslash, h]

theorem basic?_spelling {c : Char} {t : List Char} (ht : Spelling false c t) (hc : c ≠ '"')
    (r : List Char) : basic? (t ++ r) = prepend (some c) (basic? r) := by
  cases ht with
  | escape e h hu hU => exact (basic?_escape hu hU r).trans (by rw [h])
  | lineFeed hlong => cases hlong
  | number h =>
    have hcode := codePoint?_numbered h
    simp [numbered, basic?, hcode]
  | plain h hslash => exact basic?_plain hc hslash h r

/-- A basic string without long quotes is read back. -/
theorem basic?_basicText (s r : List Char) :
    basic? (basicText false 0 0 s ++ '"' :: r) = some (s, r) := by
  induction s with
  | nil =>
    rw [basicText, List.nil_append, basic?.eq_def]
    rfl
  | cons c s ih =>
    rw [basicText]
    split
    · subst_vars
      rw [if_neg (Nat.lt_irrefl 0), List.cons_append, List.cons_append,
        basic?_escape (by decide) (by decide), ih]
      rfl
    · rw [List.append_assoc, basic?_spelling (spelling_basicChar false c) ‹_›, ih]
      rfl

/-! ## Basic strings over several lines -/

theorem endsLine_cons {c : Char} (hblank : isBlank c = false) (hfeed : c ≠ '\n')
    (hreturn : c ≠ '\r') (r : List Char) : endsLine (c :: r) = false := by
  simp [endsLine, skipBlanks, hblank, newline?, hfeed, hreturn]

theorem longBasic?_escape {e : Char} (hu : e ≠ 'u') (hU : e ≠ 'U') (hblank : isBlank e = false)
    (hfeed : e ≠ '\n') (hreturn : e ≠ '\r') (r : List Char) :
    longBasic? false ('\\' :: e :: r) = prepend (shortEscape? e) (longBasic? false r) := by
  rw [longBasic?.eq_def]
  simp [hu, hU, endsLine_cons hblank hfeed hreturn]

theorem longBasic?_plain {c : Char} (hquote : c ≠ '"') (hslash : c ≠ '\\')
    (h : isControl c = false) (r : List Char) :
    longBasic? false (c :: r) = prepend (some c) (longBasic? false r) := by
  have hreturn : c ≠ '\r' := by rintro rfl; cases h
  have hfeed : c ≠ '\n' := by rintro rfl; cases h
  rw [longBasic?.eq_def]
  simp [hquote, hslash, h, hreturn, hfeed]

theorem longBasic?_lineFeed (r : List Char) :
    longBasic? false ('\n' :: r) = prepend (some '\n') (longBasic? false r) := by
  rw [longBasic?.eq_def]
  simp

theorem longBasic?_numbered {c : Char} (h : isControl c = true) (r : List Char) :
    longBasic? false (numbered c ++ r) = prepend (some c) (longBasic? false r) := by
  have hcode := codePoint?_numbered h
  have hends (r : List Char) : endsLine ('u' :: r) = false :=
    endsLine_cons (by decide) (by decide) (by decide) r
  rw [numbered, longBasic?.eq_def]
  simp [hcode, hends]

/-- A quote stands for itself if no two more follow. -/
theorem longBasic?_quote {r : List Char} (h : ¬ List.IsPrefix ['"', '"'] r) :
    longBasic? false ('"' :: r) = prepend (some '"') (longBasic? false r) := by
  have hcontrol : isControl '"' = false := by decide
  rw [longBasic?.eq_def]
  split
  case h_6 heq =>
    cases heq
    simp [isBlank, hcontrol]
  case h_1 heq | h_2 heq => cases heq
  case h_3 heq | h_4 heq | h_5 heq =>
    cases heq
    exact absurd ⟨_, rfl⟩ h

/-- Up to two quotes in front of the closing ones belong to the string. -/
theorem longBasic?_close {r : List Char} (hr : r.head? ≠ some '"') :
    longBasic? false ('"' :: '"' :: '"' :: r) = some ([], r) ∧
      longBasic? false ('"' :: '"' :: '"' :: '"' :: r) = some (['"'], r) ∧
      longBasic? false ('"' :: '"' :: '"' :: '"' :: '"' :: r) = some (['"', '"'], r) := by
  refine ⟨?_, ?_, ?_⟩
  all_goals
    rw [longBasic?.eq_def]
    cases r with
    | nil => rfl
    | cons d r => simp_all

theorem longBasic?_spelling {c : Char} {t : List Char} (ht : Spelling true c t) (hc : c ≠ '"')
    (r : List Char) : longBasic? false (t ++ r) = prepend (some c) (longBasic? false r) := by
  cases ht with
  | escape e h hu hU hblank hfeed hreturn =>
    exact (longBasic?_escape hu hU hblank hfeed hreturn r).trans (by rw [h])
  | lineFeed hlong hfeed =>
    subst hfeed
    exact longBasic?_lineFeed r
  | number h => exact longBasic?_numbered h r
  | plain h hslash => exact longBasic?_plain hc hslash h r

theorem Spelling.head_ne {long : Bool} {c : Char} {t : List Char} (ht : Spelling long c t)
    (hc : c ≠ '"') (r : List Char) : (t ++ r).head? ≠ some '"' := by
  cases ht <;> simp [numbered, hc]

/-- A quote stands for itself at the front only of a string that begins with one. -/
theorem of_head_basicText {run : Nat} {s r : List Char}
    (h : (basicText true 2 run s ++ r).head? = some '"') :
    s = [] ∨ run < 2 ∧ ∃ s', s = '"' :: s' := by
  cases s with
  | nil => exact .inl rfl
  | cons c s =>
    rw [basicText] at h
    split at h
    · subst_vars
      split at h
      · exact .inr ⟨‹_›, s, rfl⟩
      · simp at h
    · rw [List.append_assoc] at h
      exact absurd h ((spelling_basicChar true c).head_ne ‹_› _)

/-- Where two more quotes follow a quote, the string is at its end. -/
theorem of_quotes_basicText {run : Nat} {s r : List Char}
    (h : List.IsPrefix ['"', '"'] (basicText true 2 (run + 1) s ++ r)) :
    s = [] ∨ s = ['"'] ∧ run = 0 := by
  obtain ⟨t, ht⟩ := h
  obtain rfl | ⟨hrun, s', rfl⟩ := of_head_basicText (s := s) (r := r) (by rw [← ht]; rfl)
  · exact .inl rfl
  · rw [basicText, if_pos rfl, if_pos hrun] at ht
    have htail : basicText true 2 (run + 2) s' ++ r = '"' :: t := (List.cons.inj ht).2.symm
    obtain rfl | ⟨hless, -⟩ := of_head_basicText (by rw [htail]; rfl)
    · exact .inr ⟨rfl, by omega⟩
    · omega

/-- A basic string over several lines is read back. -/
theorem longBasic?_basicText (s : List Char) (run : Nat) {r : List Char}
    (hr : r.head? ≠ some '"') :
    longBasic? false (basicText true 2 run s ++ '"' :: '"' :: '"' :: r) = some (s, r) := by
  obtain ⟨hnone, hone, htwo⟩ := longBasic?_close hr
  induction s generalizing run with
  | nil => exact hnone
  | cons c s ih =>
    rw [basicText]
    split
    · subst_vars
      split
      · by_cases hquotes :
            List.IsPrefix ['"', '"'] (basicText true 2 (run + 1) s ++ '"' :: '"' :: '"' :: r)
        · obtain rfl | ⟨rfl, rfl⟩ := of_quotes_basicText hquotes
          · exact hone
          · exact htwo
        · rw [List.cons_append, longBasic?_quote hquotes, ih]
          rfl
      · rw [List.cons_append, List.cons_append, longBasic?_escape (by decide) (by decide)
          (by decide) (by decide) (by decide), ih]
        rfl
    · rw [List.append_assoc, longBasic?_spelling (spelling_basicChar true c) ‹_›, ih]
      rfl

/-! ## Literal strings -/

/-- A literal string without quotes is read back. -/
theorem literal?_append {s : List Char} (hs : ∀ c ∈ s, c ≠ '\'' ∧ isControl c = false)
    (r : List Char) : literal? (s ++ '\'' :: r) = some (s, r) := by
  induction s with
  | nil => rfl
  | cons c s ih =>
    obtain ⟨hquote, hcontrol⟩ := hs c List.mem_cons_self
    rw [List.cons_append, literal?, if_neg hquote, if_neg (by simp [hcontrol]),
      ih fun d hd => hs d (List.mem_cons_of_mem c hd)]
    rfl

theorem longLiteral?_plain {c : Char} {r : List Char} (hcontrol : isControl c = true → c = '\n')
    (hquotes : ¬ List.IsPrefix ['\'', '\'', '\''] (c :: r)) :
    longLiteral? (c :: r) = prepend (some c) (longLiteral? r) := by
  have hreturn : c ≠ '\r' := by
    rintro rfl
    exact absurd (hcontrol rfl) (by decide)
  rw [longLiteral?.eq_def]
  split
  case h_6 heq =>
    cases heq
    rw [if_neg]
    simpa using hcontrol
  case h_1 heq => cases heq
  case h_2 heq =>
    cases heq
    exact absurd rfl hreturn
  case h_3 heq | h_4 heq | h_5 heq =>
    cases heq
    exact absurd ⟨_, rfl⟩ hquotes

/-- Up to two quotes in front of the closing ones belong to the string. -/
theorem longLiteral?_close {r : List Char} (hr : r.head? ≠ some '\'') :
    longLiteral? ('\'' :: '\'' :: '\'' :: r) = some ([], r) ∧
      longLiteral? ('\'' :: '\'' :: '\'' :: '\'' :: r) = some (['\''], r) ∧
      longLiteral? ('\'' :: '\'' :: '\'' :: '\'' :: '\'' :: r) = some (['\'', '\''], r) := by
  refine ⟨?_, ?_, ?_⟩
  all_goals
    rw [longLiteral?.eq_def]
    cases r with
    | nil => rfl
    | cons d r => simp_all

theorem le_longestRun (c : Char) (s : List Char) (run most : Nat) :
    most ≤ longestRun c run most s := by
  induction s generalizing run most with
  | nil => exact Nat.le_refl _
  | cons d s ih =>
    rw [longestRun]
    split
    · exact Nat.le_trans (Nat.le_max_left _ _) (ih _ _)
    · exact ih _ _

/-- Where three quotes follow, the string is at its end, if it has never three in a row. -/
theorem of_quotes_longestRun {q : Char} {run most : Nat} {s r : List Char}
    (hrun : longestRun q run most s ≤ 2) (h : List.IsPrefix [q, q, q] (s ++ r)) :
    s = [] ∨ s = [q] ∨ s = [q, q] := by
  obtain ⟨t, ht⟩ := h
  match s with
  | [] => exact .inl rfl
  | [c] =>
    obtain rfl : q = c := (List.cons.inj ht).1
    exact .inr (.inl rfl)
  | [c, d] =>
    obtain rfl : q = c := (List.cons.inj ht).1
    obtain rfl : q = d := (List.cons.inj (List.cons.inj ht).2).1
    exact .inr (.inr rfl)
  | c :: d :: e :: s =>
    obtain rfl : q = c := (List.cons.inj ht).1
    obtain rfl : q = d := (List.cons.inj (List.cons.inj ht).2).1
    obtain rfl : q = e := (List.cons.inj (List.cons.inj (List.cons.inj ht).2).2).1
    simp only [longestRun, ↓reduceIte] at hrun
    have hlow := Nat.le_trans (le_longestRun q s _ _) hrun
    omega

theorem longestRun_tail {q c : Char} {run most n : Nat} {s : List Char}
    (h : longestRun q run most (c :: s) ≤ n) : ∃ run most, longestRun q run most s ≤ n := by
  rw [longestRun] at h
  split at h <;> exact ⟨_, _, h⟩

/-- A literal string over several lines is read back, if it has never three quotes in a row. -/
theorem longLiteral?_append {s r : List Char} {run most : Nat}
    (hrun : longestRun '\'' run most s ≤ 2) (hs : ∀ c ∈ s, isControl c = true → c = '\n')
    (hr : r.head? ≠ some '\'') :
    longLiteral? (s ++ '\'' :: '\'' :: '\'' :: r) = some (s, r) := by
  obtain ⟨hnone, hone, htwo⟩ := longLiteral?_close hr
  induction s generalizing run most with
  | nil => exact hnone
  | cons c s ih =>
    by_cases hquotes :
        List.IsPrefix ['\'', '\'', '\''] (c :: (s ++ '\'' :: '\'' :: '\'' :: r))
    · obtain hnil | hsingle | hpair := of_quotes_longestRun hrun hquotes
      · cases hnil
      · rw [hsingle]
        exact hone
      · rw [hpair]
        exact htwo
    · obtain ⟨run', most', hrun'⟩ := longestRun_tail hrun
      rw [List.cons_append, longLiteral?_plain (hs c List.mem_cons_self) hquotes,
        ih hrun' fun d hd => hs d (List.mem_cons_of_mem c hd)]
      rfl

/-! ## All strings -/

theorem not_mem_of_longestRun {q : Char} {s : List Char} (h : longestRun q 0 0 s = 0) :
    q ∉ s := by
  induction s with
  | nil => simp
  | cons c s ih =>
    rw [longestRun] at h
    split at h
    · have hlow := le_longestRun q s (0 + 1) (max 0 (0 + 1))
      omega
    · simp only [List.mem_cons, not_or]
      exact ⟨Ne.symm ‹_›, ih h⟩

theorem dropNewline_cons {c : Char} (hfeed : c ≠ '\n') (hreturn : c ≠ '\r') (r : List Char) :
    dropNewline (c :: r) = c :: r := by
  simp [dropNewline, newline?, hfeed, hreturn]

/-- What a string holds, said of its characters. -/
theorem controls_traits {s : List Char} (h : (traits s).controls = false) {c : Char} (hc : c ∈ s)
    (hcontrol : isControl c = true) : c = '\n' := by
  simp only [traits, List.any_eq_false] at h
  simpa [hcontrol] using h c hc

theorem lineFeed_traits {s : List Char} (h : (traits s).lineFeed = false) : '\n' ∉ s := by
  simp only [traits, List.any_eq_false] at h
  intro hmem
  exact h '\n' hmem (decide_eq_true rfl)

/-- The opening quotes are followed by a line feed that is dropped, or by the string at once. -/
theorem dropNewline_opening {t : Traits} {s : List Char}
    (h : t.lineFeed = false → ∃ c r, s = c :: r ∧ c ≠ '\n' ∧ c ≠ '\r') :
    dropNewline (opening t ++ s) = s := by
  unfold opening
  split
  · rfl
  · obtain ⟨c, r, rfl, hfeed, hreturn⟩ := h (by simpa using ‹¬t.lineFeed = true›)
    exact dropNewline_cons hfeed hreturn r

/-- One opening quote opens a string on one line, if no two more follow. -/
theorem string?_of_quote {r : List Char} (h : ¬ List.IsPrefix ['"', '"'] r) :
    string? ('"' :: r) = basic? r := by
  rw [string?.eq_def]
  split
  case h_2 heq =>
    cases heq
    rfl
  case h_1 heq =>
    cases heq
    exact absurd ⟨_, rfl⟩ h
  case h_3 heq | h_4 heq => cases heq
  case h_5 hother _ _ => exact absurd rfl (hother r)

theorem string?_of_apostrophe {r : List Char} (h : ¬ List.IsPrefix ['\'', '\''] r) :
    string? ('\'' :: r) = literal? r := by
  rw [string?.eq_def]
  split
  case h_4 heq =>
    cases heq
    rfl
  case h_3 heq =>
    cases heq
    exact absurd ⟨_, rfl⟩ h
  case h_1 heq | h_2 heq => cases heq
  case h_5 hother => exact absurd rfl (hother r)

theorem head_basicText_ne {c : Char} {s r : List Char} :
    (basicText false 0 0 (c :: s) ++ r).head? ≠ some '"' := by
  rw [basicText]
  split
  · simp
  · rw [List.append_assoc]
    exact (spelling_basicChar false c).head_ne ‹_› _

theorem string?_writeBasic (s r : List Char) :
    string? (writeBasic s ++ '\n' :: r) = some (s, '\n' :: r) := by
  have hshort : ¬ List.IsPrefix ['"', '"'] (basicText false 0 0 s ++ '"' :: '\n' :: r) := by
    rintro ⟨t, ht⟩
    cases s with
    | nil => simp [basicText] at ht
    | cons c s => exact absurd (by rw [← ht]; rfl) (head_basicText_ne (c := c) (s := s))
  rw [writeBasic, List.cons_append, List.cons_append, List.append_assoc, List.singleton_append,
    string?_of_quote hshort, basic?_basicText]

theorem string?_writeLiteral {s : List Char} (hs : ∀ c ∈ s, c ≠ '\'' ∧ isControl c = false)
    (r : List Char) : string? (writeLiteral s ++ '\n' :: r) = some (s, '\n' :: r) := by
  have hshort : ¬ List.IsPrefix ['\'', '\''] (s ++ '\'' :: '\n' :: r) := by
    rintro ⟨t, ht⟩
    cases s with
    | nil => simp at ht
    | cons c s => exact (hs c List.mem_cons_self).1 (List.cons.inj ht).1.symm
  rw [writeLiteral, List.cons_append, List.cons_append, List.append_assoc, List.singleton_append,
    string?_of_apostrophe hshort, literal?_append hs]

/-- A string without a line feed is written without one at the front. -/
theorem exists_basicText {s : List Char} (h : '\n' ∉ s) (r : List Char) :
    ∃ c t, basicText true 2 0 s ++ '"' :: r = c :: t ∧ c ≠ '\n' ∧ c ≠ '\r' := by
  cases s with
  | nil => exact ⟨'"', r, rfl, by decide, by decide⟩
  | cons c s =>
    have hc : c ≠ '\n' := fun hc => h (hc ▸ List.mem_cons_self)
    rw [basicText]
    split
    · exact ⟨'"', _, rfl, by decide, by decide⟩
    · have hspelling := spelling_basicChar true c
      generalize basicChar true c = t at hspelling
      cases hspelling with
      | escape e => exact ⟨'\\', _, rfl, by decide, by decide⟩
      | lineFeed _ hfeed => exact absurd hfeed hc
      | number => exact ⟨'\\', _, rfl, by decide, by decide⟩
      | plain hplain =>
        refine ⟨c, _, rfl, hc, ?_⟩
        rintro rfl
        cases hplain

theorem string?_writeLongBasic (s r : List Char) :
    string? (writeLongBasic (traits s) s ++ '\n' :: r) = some (s, '\n' :: r) := by
  have hopen := dropNewline_opening (t := traits s) fun h =>
    exists_basicText (lineFeed_traits h) ('"' :: '"' :: '\n' :: r)
  have hread := longBasic?_basicText s 0 (r := '\n' :: r) (by simp)
  rw [← hopen] at hread
  simpa [writeLongBasic, string?] using hread

theorem string?_writeLongLiteral {s : List Char} (hrun : longestRun '\'' 0 0 s ≤ 2)
    (hs : ∀ c ∈ s, isControl c = true → c = '\n') (r : List Char) :
    string? (writeLongLiteral (traits s) s ++ '\n' :: r) = some (s, '\n' :: r) := by
  have hopen := dropNewline_opening (t := traits s)
    (s := s ++ '\'' :: '\'' :: '\'' :: '\n' :: r) fun h => by
      cases s with
      | nil => exact ⟨_, _, rfl, by decide, by decide⟩
      | cons c s =>
        have hfeed : c ≠ '\n' := fun hc => lineFeed_traits h (hc ▸ List.mem_cons_self)
        refine ⟨c, _, rfl, hfeed, ?_⟩
        rintro rfl
        exact hfeed (hs _ List.mem_cons_self rfl)
  have hread := longLiteral?_append hrun hs (r := '\n' :: r) (by simp)
  rw [← hopen] at hread
  simpa [writeLongLiteral, string?] using hread

/-- A written string is read back, up to the end of its line. -/
theorem string?_writeString (s r : List Char) :
    string? (writeString s ++ '\n' :: r) = some (s, '\n' :: r) := by
  have hcontrols (h : (traits s).controls = false) : ∀ c ∈ s, isControl c = true → c = '\n' :=
    fun c hc => controls_traits h hc
  unfold writeString
  dsimp only
  split
  · exact string?_writeBasic s r
  split
  · rename_i hliteral
    simp only [Bool.and_eq_true, Bool.not_eq_true', decide_eq_true_eq] at hliteral
    obtain ⟨⟨hcontrol, hquotes⟩, hfeed⟩ := hliteral
    refine string?_writeLiteral (fun c hc => ⟨?_, ?_⟩) r
    · rintro rfl
      exact not_mem_of_longestRun hquotes hc
    · cases hctrl : isControl c with
      | false => rfl
      | true => exact absurd (hcontrols hcontrol c hc hctrl ▸ hc) (lineFeed_traits hfeed)
  split
  · exact string?_writeLongBasic s r
  split
  · rename_i hliteral
    simp only [Bool.and_eq_true, Bool.not_eq_true', decide_eq_true_eq] at hliteral
    exact string?_writeLongLiteral hliteral.2 (hcontrols hliteral.1) r
  split
  · exact string?_writeLongBasic s r
  · exact string?_writeBasic s r

end Tether.Toml
