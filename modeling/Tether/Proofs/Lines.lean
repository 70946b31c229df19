import Mathlib.Data.List.Basic
import Tether.Proofs.Strings

/-!
# Lines read back

A written line is read back as the statement that it is, and what follows it is left
(`Toml.statement?_write`) : names without quotes end at the first character that no such name
has, strings are read back by `Toml.string?_writeString`, and the digits of a number by what they
count. So the text of a list of lines is read back as the list of its statements
(`Toml.statements?_writeLines`); the blank lines between its sections are passed over. Only a
number that is too large keeps lines from being written (`Toml.writeLines?_eq_none_iff`).
-/

namespace Tether.Toml

/-! ## Keys -/

/-- A name that needs no quotes. -/
def IsBareName (name : String) : Prop := name.toList ≠ [] ∧ ∀ c ∈ name.toList, isBare c = true

instance (name : String) : Decidable (IsBareName name) :=
  decidable_of_iff (name.toList.isEmpty = false ∧ name.toList.all isBare = true)
    (by simp [IsBareName])

/-- What stands behind a name that needs no quotes. -/
def EndsName (r : List Char) : Prop := ∀ c ∈ r.head?, isBare c = false

theorem takeWhile_of_head {p : Char → Bool} {s r : List Char} (hs : ∀ c ∈ s, p c = true)
    (hr : ∀ c ∈ r.head?, p c = false) :
    (s ++ r).takeWhile p = s ∧ (s ++ r).dropWhile p = r := by
  rw [List.takeWhile_append_of_pos hs, List.dropWhile_append_of_pos hs]
  cases r with
  | nil => simp
  | cons c r => simp [hr c rfl]

theorem ne_of_isBare {c d : Char} (hc : isBare c = true) (hd : isBare d = false) : c ≠ d := by
  rintro rfl
  rw [hc] at hd
  cases hd

theorem isBlank_of_isBare {c : Char} (h : isBare c = true) : isBlank c = false := by
  have hspace : c ≠ ' ' := ne_of_isBare h (by decide)
  have htab : c ≠ '\t' := ne_of_isBare h (by decide)
  simp [isBlank, hspace, htab]

theorem skipBlanks_of_head {s : List Char} (h : ∀ c ∈ s.head?, isBlank c = false) :
    skipBlanks s = s := by
  cases s with
  | nil => rfl
  | cons c s => simp [skipBlanks, h c rfl]

variable {name : String} {r : List Char}

theorem IsBareName.exists_cons (h : IsBareName name) :
    ∃ c s, name.toList = c :: s ∧ isBare c = true := by
  obtain ⟨hne, hall⟩ := h
  cases hs : name.toList with
  | nil => exact absurd hs hne
  | cons c s => exact ⟨c, s, rfl, hall c (hs ▸ List.mem_cons_self)⟩

theorem IsBareName.skipBlanks (h : IsBareName name) (r : List Char) :
    Toml.skipBlanks (name.toList ++ r) = name.toList ++ r := by
  obtain ⟨c, s, hs, hc⟩ := h.exists_cons
  rw [hs]
  exact skipBlanks_of_head fun d hd => by
    obtain rfl : c = d := Option.some.inj hd
    exact isBlank_of_isBare hc

theorem keyPart?_bare (h : IsBareName name) (hr : EndsName r) :
    keyPart? (name.toList ++ r) = some (name, r) := by
  obtain ⟨c, s, hs, hc⟩ := h.exists_cons
  obtain ⟨htake, hdrop⟩ := takeWhile_of_head h.2 hr
  have hquote : c ≠ '"' := ne_of_isBare hc (by decide)
  have hapostrophe : c ≠ '\'' := ne_of_isBare hc (by decide)
  unfold keyPart?
  split
  case h_1 heq => simp [hs, hquote] at heq
  case h_2 heq => simp [hs, hapostrophe] at heq
  case h_3 =>
    have hne : name.toList.isEmpty = false := by simp [hs]
    simp [htake, hdrop, hne]

/-- A dotted key is read part by part. -/
theorem keyPath?_writePath {path : List String} (hpath : ∀ part ∈ path, IsBareName part)
    (hname : IsBareName name) (hr : EndsName r) (hdot : (skipBlanks r).head? ≠ some '.') {n : Nat}
    (hn : path.length < n) :
    keyPath? n (writePath path name ++ r) = some (path ++ [name], skipBlanks r) := by
  induction path generalizing n with
  | nil =>
    obtain ⟨n, rfl⟩ : ∃ m, n = m + 1 := ⟨n - 1, by simp at hn; omega⟩
    rw [writePath, keyPath?, hname.skipBlanks, keyPart?_bare hname hr]
    dsimp only
    split
    · rename_i heq
      rw [heq] at hdot
      exact absurd rfl hdot
    · rfl
  | cons part path ih =>
    obtain ⟨n, rfl⟩ : ∃ m, n = m + 1 := ⟨n - 1, by simp at hn; omega⟩
    have hpart := hpath part List.mem_cons_self
    have hdot' : EndsName ('.' :: (writePath path name ++ r)) := by
      intro c hc
      obtain rfl : '.' = c := Option.some.inj hc
      decide
    rw [writePath, List.append_assoc, List.cons_append, keyPath?, hpart.skipBlanks,
      keyPart?_bare hpart hdot']
    dsimp only
    rw [skipBlanks_of_head (s := '.' :: _) (by simp [isBlank])]
    simp only
    rw [ih (fun q hq => hpath q (List.mem_cons_of_mem part hq)) (by simpa using hn)]
    rfl

theorem key?_writePath {path : List String} (hpath : ∀ part ∈ path, IsBareName part)
    (hname : IsBareName name) (hr : EndsName r) (hdot : (skipBlanks r).head? ≠ some '.')
    (hn : path.length < maxDepth) :
    key? (writePath path name ++ r) = some ((path, name), skipBlanks r) := by
  rw [key?, keyPath?_writePath hpath hname hr hdot hn]
  simp

/-! ## Numbers -/

theorem isGrouped_of_all {digit : Char → Bool} (hmark : digit '_' = false) {s : List Char}
    (hne : s ≠ []) (hs : ∀ c ∈ s, digit c = true) : isGrouped digit s = true := by
  induction s with
  | nil => exact absurd rfl hne
  | cons c s ih =>
    have hc := hs c List.mem_cons_self
    have hrest := fun d hd => hs d (List.mem_cons_of_mem c hd)
    cases s with
    | nil => simpa [isGrouped] using hc
    | cons d s =>
      have hd : d ≠ '_' := by
        rintro rfl
        simp [hrest '_' List.mem_cons_self] at hmark
      simp [isGrouped, hc, hd, ih (List.cons_ne_nil d s) hrest]

theorem isDigit_toDigits (n : Nat) : ∀ c ∈ Nat.toDigits 10 n, c.isDigit = true :=
  fun _ hc => Nat.isDigit_of_mem_toDigits (by decide) (by decide) hc

/-- A number other than zero does not begin with a zero. -/
theorem head?_toDigits {n : Nat} (h : n ≠ 0) : (Nat.toDigits 10 n).head? ≠ some '0' := by
  have hdigit : ∀ d < 10, d ≠ 0 → Nat.digitChar d ≠ '0' := by decide
  induction n using Nat.strongRecOn with
  | _ n ih =>
    by_cases hn : n < 10
    · simpa [Nat.toDigits_of_lt_base hn] using hdigit n hn h
    · rw [Nat.toDigits_of_base_le (by decide) (by omega),
        List.head?_append_of_ne_nil _ Nat.toDigits_ne_nil]
      exact ih (n / 10) (by omega) (by omega)

theorem isWhole_toDigits (n : Nat) : isWhole (Nat.toDigits 10 n) = true := by
  have hgrouped := isGrouped_of_all (by decide) Nat.toDigits_ne_nil (isDigit_toDigits n)
  by_cases h : n = 0
  · subst h
    rfl
  · simp [isWhole, hgrouped, head?_toDigits h]

theorem digitsValue_of_digits {s : List Char} (h : ∀ c ∈ s, c.isDigit = true) :
    digitsValue 10 s = Nat.ofDigitChars 10 s 0 := by
  rw [Nat.ofDigitChars_eq_foldl, digitsValue]
  refine List.foldl_ext _ _ 0 fun n c hc => ?_
  have hdigit := h c hc
  have hmark : c ≠ '_' := by
    rintro rfl
    cases hdigit
  simp [digitValue, hdigit, hmark]

/-- Digits are read back as the number that they were written from. -/
theorem integer?_toDigits (n : Nat) : integer? (Nat.toDigits 10 n) = some (n : Int) := by
  have hall := isDigit_toDigits n
  have hvalue : digitsValue 10 (Nat.toDigits 10 n) = n := by
    rw [digitsValue_of_digits hall, Nat.ofDigitChars_ten_toDigits]
  have hsecond {d : Char} {r : List Char} (h : Nat.toDigits 10 n = '0' :: d :: r) :
      d.isDigit = true := hall d (by simp [h])
  have hsign : splitSign (Nat.toDigits 10 n) = (none, Nat.toDigits 10 n) := by
    unfold splitSign
    split
    case h_1 heq => exact absurd (hall '+' (by simp [heq])) (by decide)
    case h_2 heq => exact absurd (hall '-' (by simp [heq])) (by decide)
    case h_3 => rfl
  unfold integer?
  split
  case h_1 heq => exact absurd (hsecond heq) (by decide)
  case h_2 heq => exact absurd (hsecond heq) (by decide)
  case h_3 heq => exact absurd (hsecond heq) (by decide)
  case h_4 => simp [hsign, isWhole_toDigits, hvalue]

theorem ofWord?_toDigits {n : Nat} (h : fits n = true) :
    Value.ofWord? (Nat.toDigits 10 n) = some (.integer n) := by
  have hall := isDigit_toDigits n
  have htrue : Nat.toDigits 10 n ≠ ['t', 'r', 'u', 'e'] := fun heq =>
    absurd (hall 't' (by simp [heq])) (by decide)
  have hfalse : Nat.toDigits 10 n ≠ ['f', 'a', 'l', 's', 'e'] := fun heq =>
    absurd (hall 'f' (by simp [heq])) (by decide)
  simp [Value.ofWord?, htrue, hfalse, integer?_toDigits, h]

/-! ## Values -/

theorem isWord_of_isDigit {c : Char} (h : c.isDigit = true) : isWord c = true := by
  simp [isWord, isBare, Char.isAlphanum, h]

/-- A word at the end of a line. -/
theorem word?_lineEnd {word : List Char} (h : ∀ c ∈ word, isWord c = true) (r : List Char) :
    word? (word ++ '\n' :: r) = (Value.ofWord? word).map fun v => (v, '\n' :: r) := by
  obtain ⟨htake, hdrop⟩ := takeWhile_of_head (r := '\n' :: r) h fun c hc => by
    obtain rfl : '\n' = c := Option.some.inj hc
    decide
  simp [word?, htake, hdrop]

/-- A text that opens no list and no table is a value in which no others nest. -/
theorem value?_flat {s : List Char} (hlist : s.head? ≠ some '[') (htable : s.head? ≠ some '\x7b')
    (depth : Nat) : value? depth s = flatValue? s := by
  cases depth with
  | zero => simp [value?]
  | succ depth =>
    unfold value?
    split
    case h_1 => exact absurd rfl hlist
    case h_2 => exact absurd rfl htable
    case h_3 => rfl

/-- A word is the value that it writes. -/
theorem value?_word {word : List Char} {v : Value} (hne : word ≠ [])
    (hword : ∀ c ∈ word, isWord c = true) (hv : Value.ofWord? word = some v) (depth : Nat)
    (r : List Char) : value? depth (word ++ '\n' :: r) = some (v, '\n' :: r) := by
  have hhead {c : Char} (hc : isWord c = false) : (word ++ '\n' :: r).head? ≠ some c := by
    intro h
    rw [List.head?_append_of_ne_nil _ hne] at h
    rw [hword c (List.mem_of_mem_head? h)] at hc
    cases hc
  have hquote := hhead (c := '"') (by decide)
  have hapostrophe := hhead (c := '\'') (by decide)
  rw [value?_flat (hhead (by decide)) (hhead (by decide)), flatValue?,
    if_neg (by simpa only [Bool.or_eq_true, decide_eq_true_eq, not_or] using
      And.intro hquote hapostrophe), word?_lineEnd hword, hv]
  rfl

theorem head?_writeString (s r : List Char) :
    (writeString s ++ r).head? = some '"' ∨ (writeString s ++ r).head? = some '\'' := by
  unfold writeString
  dsimp only
  repeat' split
  all_goals simp [writeBasic, writeLiteral, writeLongBasic, writeLongLiteral]

theorem value?_writeString (s : String) (depth : Nat) (r : List Char) :
    value? depth (writeString s.toList ++ '\n' :: r) = some (.string s, '\n' :: r) := by
  have hhead := head?_writeString s.toList ('\n' :: r)
  rw [value?_flat (by rcases hhead with h | h <;> simp [h])
    (by rcases hhead with h | h <;> simp [h]), flatValue?,
    if_pos (by simpa using hhead), string?_writeString]
  simp

theorem value?_nothing (depth : Nat) (r : List Char) :
    value? (depth + 1) ('[' :: ']' :: r) = some (.array [], r) := by
  have hskip : skipLines false (']' :: r) = some (']' :: r) := by
    rw [skipLines.eq_def]
    simp [isBlank]
  simp [value?, arrayItems?, hskip]

/-- A value is read back, whatever stands on the lines after it. -/
theorem value?_write {v : Simple} {t : List Char} (h : v.write? = some t) (depth : Nat)
    (r : List Char) : value? (depth + 1) (t ++ '\n' :: r) = some (v.toValue, '\n' :: r) := by
  cases v with
  | string s =>
    obtain rfl : writeString s.toList = t := Option.some.inj h
    exact value?_writeString s (depth + 1) r
  | integer n =>
    obtain ⟨hfits, rfl⟩ : fits n = true ∧ Nat.toDigits 10 n = t := by
      simpa [Simple.write?] using h
    exact value?_word Nat.toDigits_ne_nil
      (fun c hc => isWord_of_isDigit (isDigit_toDigits n c hc)) (ofWord?_toDigits hfits) _ r
  | boolean b =>
    obtain rfl : (if b then "true" else "false").toList = t := Option.some.inj h
    cases b <;> exact value?_word (by decide) (List.all_eq_true.mp (by decide)) (by rfl) _ r
  | nothing =>
    obtain rfl : ['[', ']'] = t := Option.some.inj h
    exact value?_nothing depth ('\n' :: r)

theorem head?_write {v : Simple} {t : List Char} (h : v.write? = some t) (r : List Char) :
    ∀ c ∈ (t ++ r).head?, isBlank c = false := by
  intro c hc
  cases v with
  | string s =>
    obtain rfl : writeString s.toList = t := Option.some.inj h
    rcases head?_writeString s.toList r with hquote | hquote <;>
      · rw [hquote] at hc
        obtain rfl := Option.some.inj hc
        decide
  | integer n =>
    obtain ⟨-, rfl⟩ : fits n = true ∧ Nat.toDigits 10 n = t := by
      simpa [Simple.write?] using h
    rw [List.head?_append_of_ne_nil _ Nat.toDigits_ne_nil] at hc
    refine isBlank_of_isBare ?_
    simp [isBare, Char.isAlphanum, isDigit_toDigits n c (List.mem_of_mem_head? hc)]
  | boolean b =>
    obtain rfl : (if b then "true" else "false").toList = t := Option.some.inj h
    cases b <;> obtain rfl := Option.some.inj hc <;> decide
  | nothing =>
    obtain rfl : ['[', ']'] = t := Option.some.inj h
    obtain rfl := Option.some.inj hc
    decide

/-! ## Lines -/

/-- A line whose names need no quotes and whose path is not too long to be read back. -/
def Line.IsPlain : Line → Prop
  | .header path name => (∀ part ∈ path, IsBareName part) ∧ IsBareName name ∧ path.length < maxDepth
  | .item path name => (∀ part ∈ path, IsBareName part) ∧ IsBareName name ∧ path.length < maxDepth
  | .pair key _ => IsBareName key

theorem lineEnd?_lineFeed (r : List Char) : lineEnd? ('\n' :: r) = some r := by
  simp [lineEnd?, skipBlanks, isBlank, newline?]

theorem endsName_cons {c : Char} (hc : isBare c = false) (r : List Char) : EndsName (c :: r) := by
  intro d hd
  obtain rfl : c = d := Option.some.inj hd
  exact hc

theorem exists_cons_writePath {path : List String} (hpath : ∀ part ∈ path, IsBareName part)
    (hname : IsBareName name) : ∃ c s, writePath path name = c :: s ∧ isBare c = true := by
  cases path with
  | nil => exact hname.exists_cons
  | cons part path =>
    obtain ⟨c, s, hs, hc⟩ := (hpath part List.mem_cons_self).exists_cons
    exact ⟨c, s ++ '.' :: writePath path name, by simp [writePath, hs], hc⟩

/-- A name in brackets is read up to the first bracket behind it. -/
theorem key?_bracket {path : List String} (hpath : ∀ part ∈ path, IsBareName part)
    (hname : IsBareName name) (hlength : path.length < maxDepth) (r : List Char) :
    key? (writePath path name ++ ']' :: r) = some ((path, name), ']' :: r) := by
  have hskip : skipBlanks (']' :: r) = ']' :: r := skipBlanks_of_head (by simp [isBlank])
  rw [key?_writePath hpath hname (endsName_cons (by decide) r) (by simp [hskip]) hlength, hskip]

/-- A pair is read up to the end of its line. -/
theorem pair?_write {key : String} (hkey : IsBareName key) {v : Simple} {t : List Char}
    (h : v.write? = some t) (depth : Nat) (r : List Char) :
    pair? (value? (depth + 1)) (key.toList ++ [' ', '=', ' '] ++ t ++ '\n' :: r) =
      some (([], key, v.toValue), '\n' :: r) := by
  have hequals : skipBlanks (' ' :: '=' :: ' ' :: (t ++ '\n' :: r)) =
      '=' :: ' ' :: (t ++ '\n' :: r) := by
    simp [skipBlanks, isBlank]
  have hvalue : skipBlanks (' ' :: (t ++ '\n' :: r)) = t ++ '\n' :: r := by
    rw [skipBlanks, List.dropWhile_cons_of_pos (by decide)]
    exact skipBlanks_of_head (head?_write h _)
  have hkey? : key? (writePath [] key ++ ' ' :: '=' :: ' ' :: (t ++ '\n' :: r)) =
      some (([], key), '=' :: ' ' :: (t ++ '\n' :: r)) := by
    rw [key?_writePath (by simp) hkey (endsName_cons (by decide) _) (by simp [hequals])
      (by decide), hequals]
  rw [writePath] at hkey?
  have hfeed : skipBlanks ('\n' :: r) = '\n' :: r := skipBlanks_of_head (by simp [isBlank])
  simp [pair?, hkey?, hvalue, value?_write h depth r, hfeed]

variable {l : Line} {s : List Char}

/-- A written line is read back as its statement, and what follows it is left. -/
theorem statement?_write (hl : l.IsPlain) (h : l.write? true = some s) (r : List Char) :
    statement? (s ++ r) = some (l.toStatement, r) := by
  cases l with
  | header path name =>
    obtain ⟨hpath, hname, hlength⟩ := hl
    obtain rfl : '[' :: writePath path name ++ [']', '\n'] = s := Option.some.inj h
    have hkey := key?_bracket hpath hname hlength ('\n' :: r)
    obtain ⟨c, u, hu, hc⟩ := exists_cons_writePath hpath hname
    have hbracket : c ≠ '[' := ne_of_isBare hc (by decide)
    rw [hu, List.cons_append] at hkey
    simp [statement?, hu, hbracket, hkey, lineEnd?_lineFeed, Line.toStatement]
  | item path name =>
    obtain ⟨hpath, hname, hlength⟩ := hl
    obtain rfl : '[' :: '[' :: writePath path name ++ [']', ']', '\n'] = s := Option.some.inj h
    have hkey := key?_bracket hpath hname hlength (']' :: '\n' :: r)
    simp [statement?, hkey, lineEnd?_lineFeed, Line.toStatement]
  | pair key value =>
    obtain ⟨t, ht, rfl⟩ : ∃ t, value.write? = some t ∧
        key.toList ++ [' ', '=', ' '] ++ t ++ ['\n'] = s := by
      simpa [Line.write?] using h
    obtain ⟨c, u, hu, hc⟩ := hl.exists_cons
    have hbracket : c ≠ '[' := ne_of_isBare hc (by decide)
    obtain ⟨rest, hrest⟩ :
        ∃ rest, key.toList ++ [' ', '=', ' '] ++ t ++ '\n' :: r = c :: rest :=
      ⟨u ++ [' ', '=', ' '] ++ t ++ '\n' :: r, by simp [hu]⟩
    have hpair : pair? (value? maxDepth) (c :: rest) = some (([], key, value.toValue), '\n' :: r) :=
      hrest ▸ pair?_write hl ht 78 r
    rw [List.append_assoc, List.singleton_append, hrest]
    simp [statement?, hbracket, hpair, lineEnd?_lineFeed, Line.toStatement]

/-! ## Texts -/

/-- A written line opens with a character that opens a statement. -/
theorem exists_cons_write (hl : l.IsPlain) (h : l.write? true = some s) :
    ∃ c u, s = c :: u ∧ (isBare c = true ∨ c = '[') := by
  cases l with
  | header path name =>
    obtain rfl : '[' :: writePath path name ++ [']', '\n'] = s := Option.some.inj h
    exact ⟨'[', writePath path name ++ [']', '\n'], rfl, .inr rfl⟩
  | item path name =>
    obtain rfl : '[' :: '[' :: writePath path name ++ [']', ']', '\n'] = s := Option.some.inj h
    exact ⟨'[', '[' :: writePath path name ++ [']', ']', '\n'], rfl, .inr rfl⟩
  | pair key value =>
    obtain ⟨t, -, rfl⟩ : ∃ t, value.write? = some t ∧
        key.toList ++ [' ', '=', ' '] ++ t ++ ['\n'] = s := by
      simpa [Line.write?] using h
    obtain ⟨c, u, hu, hc⟩ := hl.exists_cons
    exact ⟨c, u ++ [' ', '=', ' '] ++ t ++ ['\n'], by simp [hu], .inl hc⟩

theorem statements?_lineFeed (n : Nat) (s : List Char) :
    statements? (n + 1) ('\n' :: s) = statements? n s := by
  rw [statements?, skipBlanks_of_head (by simp [isBlank])]
  simp [lineEnd?_lineFeed]

/-- A line is the first statement of a text that it opens. -/
theorem statements?_write (hl : l.IsPlain) (h : l.write? true = some s) (n : Nat)
    (r : List Char) :
    statements? (n + 1) (s ++ r) = (statements? n r).map fun rest => l.toStatement :: rest := by
  obtain ⟨c, u, rfl, hc⟩ := exists_cons_write hl h
  have hne {d : Char} (hd : isBare d = false) (hd' : d ≠ '[') : c ≠ d := by
    rcases hc with hc | rfl
    · exact ne_of_isBare hc hd
    · exact hd'.symm
  have hskip : skipBlanks (c :: (u ++ r)) = c :: (u ++ r) := skipBlanks_of_head (by
    have hspace : c ≠ ' ' := hne (by decide) (by decide)
    have htab : c ≠ '\t' := hne (by decide) (by decide)
    simp [isBlank, hspace, htab])
  have hend : lineEnd? (c :: (u ++ r)) = none := by
    have hcomment : c ≠ '#' := hne (by decide) (by decide)
    have hfeed : c ≠ '\n' := hne (by decide) (by decide)
    have hreturn : c ≠ '\r' := hne (by decide) (by decide)
    simp [lineEnd?, hskip, hcomment, newline?, hfeed, hreturn]
  have hstatement := statement?_write hl h r
  rw [List.cons_append] at hstatement ⊢
  simp [statements?, hskip, hend, hstatement]

/-- A line after the first is the line, with a blank line in front of it if it is a header. -/
theorem write?_false (h : l.write? false = some s) :
    ∃ t, l.write? true = some t ∧ (s = t ∨ s = '\n' :: t) := by
  cases l with
  | header | item => exact ⟨_, rfl, .inr (by simpa [Line.write?] using h.symm)⟩
  | pair => exact ⟨s, h, .inl rfl⟩

/-- The lines of a text are read back as its statements. -/
theorem statements?_writeLines {lines : List Line} (hlines : ∀ l ∈ lines, l.IsPlain)
    {first : Bool} {t : List Char} (h : writeLines? first lines = some t) {n : Nat}
    (hn : t.length < n) : statements? n t = some (lines.map Line.toStatement) := by
  induction lines generalizing first t n with
  | nil =>
    obtain rfl : [] = t := Option.some.inj h
    obtain ⟨n, rfl⟩ : ∃ m, n = m + 1 := ⟨n - 1, by omega⟩
    rfl
  | cons l lines ih =>
    rw [writeLines?] at h
    split at h
    case h_2 => cases h
    rename_i s r hs hr
    obtain rfl : s ++ r = t := Option.some.inj h
    have hl := hlines l List.mem_cons_self
    obtain ⟨u, hu, hs⟩ : ∃ u, l.write? true = some u ∧ (s = u ∨ s = '\n' :: u) := by
      cases first with
      | true => exact ⟨s, hs, .inl rfl⟩
      | false => exact write?_false hs
    obtain ⟨c, v, rfl, -⟩ := exists_cons_write hl hu
    have hrest {m : Nat} (hm : r.length < m) :
        statements? m r = some (lines.map Line.toStatement) :=
      ih (fun k hk => hlines k (List.mem_cons_of_mem l hk)) hr hm
    have hline {m : Nat} (hm : r.length < m) : statements? (m + 1) (c :: v ++ r) =
        some ((l :: lines).map Line.toStatement) := by
      rw [statements?_write hl hu, hrest hm]
      rfl
    rcases hs with rfl | rfl
    · obtain ⟨n, rfl⟩ : ∃ m, n = m + 1 := ⟨n - 1, by omega⟩
      exact hline (by simp at hn; omega)
    · obtain ⟨n, rfl⟩ : ∃ m, n = m + 2 := ⟨n - 2, by simp at hn; omega⟩
      rw [List.cons_append, statements?_lineFeed]
      exact hline (by simp at hn; omega)

theorem head?_writeLines {lines : List Line} (hlines : ∀ l ∈ lines, l.IsPlain) {t : List Char}
    (h : writeLines? true lines = some t) : ∀ c ∈ t.head?, isBare c = true ∨ c = '[' := by
  intro c hc
  cases lines with
  | nil =>
    obtain rfl : [] = t := Option.some.inj h
    cases hc
  | cons l lines =>
    rw [writeLines?] at h
    split at h
    case h_2 => cases h
    rename_i s r hs hr
    obtain ⟨d, u, rfl, hd⟩ := exists_cons_write (hlines l List.mem_cons_self) hs
    obtain rfl : d :: (u ++ r) = t := Option.some.inj h
    obtain rfl : d = c := Option.some.inj hc
    exact hd

/-- The text of lines is the document that their statements add up to. -/
theorem document?_writeLines {lines : List Line} (hlines : ∀ l ∈ lines, l.IsPlain)
    {t : List Char} (h : writeLines? true lines = some t) :
    document? (String.ofList t) = assemble? (lines.map Line.toStatement) := by
  have hmark : dropMark t = t := by
    unfold dropMark
    split
    · exact absurd (head?_writeLines hlines h '\ufeff' rfl) (by decide)
    · rfl
  rw [document?, String.toList_ofList, hmark, statements?_writeLines hlines h (Nat.lt_succ_self _),
    Option.bind_some]

/-! ## What cannot be written -/

theorem write?_eq_none_iff (first : Bool) (l : Line) :
    l.write? first = none ↔ ∃ key n, l = .pair key (.integer n) ∧ fits n = false := by
  cases l with
  | header | item => simp [Line.write?]
  | pair key v => cases v <;> simp [Line.write?, Simple.write?]

/-- Lines can be written unless one of them holds a number that does not fit. -/
theorem writeLines?_eq_none_iff (first : Bool) (lines : List Line) :
    writeLines? first lines = none ↔
      ∃ key n, Line.pair key (.integer n) ∈ lines ∧ fits n = false := by
  induction lines generalizing first with
  | nil => simp [writeLines?]
  | cons l lines ih =>
    have hsplit : writeLines? first (l :: lines) = none ↔
        l.write? first = none ∨ writeLines? false lines = none := by
      cases hl : l.write? first <;> cases hrest : writeLines? false lines <;>
        simp [writeLines?, hl, hrest]
    rw [hsplit, ih, write?_eq_none_iff]
    constructor
    · rintro (⟨key, n, rfl, hn⟩ | ⟨key, n, hmem, hn⟩)
      · exact ⟨key, n, List.mem_cons_self, hn⟩
      · exact ⟨key, n, List.mem_cons_of_mem l hmem, hn⟩
    · rintro ⟨key, n, hmem, hn⟩
      rcases List.mem_cons.mp hmem with rfl | hmem
      · exact .inl ⟨key, n, rfl, hn⟩
      · exact .inr ⟨key, n, hmem, hn⟩

end Tether.Toml
