import Mathlib
import PortMatch.Text.Quoted

/-!
# Reading quoted texts and numbers back

A message is put together from fixed words, quoted texts and numbers.  Wherever a quoted text stands,
it can be read back, whatever it contains and whatever follows it: an escaped character shows by
itself where it ends, and no escaped character begins like the closing mark.  A number can be read
back if what follows does not begin with a digit.

* `unescape?` — the first character of an escaped text; `unescape?_escapeChar_append`, that it is the
  one that was escaped;
* `quote_append_inj` — a quoted text and what follows it can be told from the two together;
* `toString_append_inj` — so can a number;
* `space_le_of_mem_quote`, `newline_not_mem_quote` — a quoted text holds no control character before
  the space, and so is on one line.
-/

namespace PortMatch.Text

/-! ## Hexadecimal digits -/

/-- The value of a hexadecimal digit. -/
def digitValue (c : Char) : Nat := if c.isDigit then c.toNat - 48 else c.toNat - 87

/-- The number that is written with the given hexadecimal digits. -/
def hexValue (digits : List Char) : Nat := digits.foldl (fun n c => 16 * n + digitValue c) 0

theorem digitValue_digitChar {d : Nat} (h : d < 16) : digitValue d.digitChar = d := by
  interval_cases d <;> rfl

theorem hexValue_toDigits (n : Nat) : hexValue (Nat.toDigits 16 n) = n := by
  induction n using Nat.strongRecOn with
  | ind n ih =>
    rw [Nat.toDigits_eq_if (by decide)]
    split
    · next h => exact (Nat.zero_add _).trans (digitValue_digitChar h)
    · next h =>
      have hdigit := digitValue_digitChar (Nat.mod_lt n (show 0 < 16 by decide))
      have hrest := ih (n / 16) (Nat.div_lt_self (by omega) (by decide))
      rw [hexValue] at hrest ⊢
      rw [List.foldl_append, hrest, List.foldl_cons, List.foldl_nil, hdigit, Nat.div_add_mod]

theorem exists_digitChar_of_mem_toDigits {n : Nat} {c : Char} (h : c ∈ Nat.toDigits 16 n) :
    ∃ d < 16, c = Nat.digitChar d := by
  induction n using Nat.strongRecOn with
  | ind n ih =>
    rw [Nat.toDigits_eq_if (by decide)] at h
    split at h
    · next hlt => exact ⟨n, hlt, List.mem_singleton.1 h⟩
    · rcases List.mem_append.1 h with h | h
      · exact ih (n / 16) (Nat.div_lt_self (by omega) (by decide)) h
      · exact ⟨n % 16, Nat.mod_lt n (by decide), List.mem_singleton.1 h⟩

theorem space_le_digitChar {d : Nat} (h : d < 16) : 32 ≤ d.digitChar.toNat := by
  interval_cases d <;> decide

/-! ## Escaped characters -/

/-- Reads the first character of an escaped text.  The rest of the text comes with it. -/
def unescape? : List Char → Option (Char × List Char)
  | '\\' :: 'u' :: '{' :: rest =>
    some (.ofNat (hexValue (rest.takeWhile (· ≠ '}'))), (rest.dropWhile (· ≠ '}')).tail)
  | '\\' :: '0' :: rest => some ('\x00', rest)
  | '\\' :: 't' :: rest => some ('\t', rest)
  | '\\' :: 'r' :: rest => some ('\r', rest)
  | '\\' :: 'n' :: rest => some ('\n', rest)
  | '\\' :: c :: rest => some (c, rest)
  | c :: rest => some (c, rest)
  | [] => none

theorem unescape?_cons {c : Char} (hc : c ≠ '\\') (rest : List Char) :
    unescape? (c :: rest) = some (c, rest) := by
  unfold unescape?
  split <;> simp_all

theorem unescape?_hex (n : Nat) (rest : List Char) :
    unescape? ('\\' :: 'u' :: '{' :: (Nat.toDigits 16 n ++ '}' :: rest)) = some (.ofNat n, rest) := by
  have hdigits : ∀ c ∈ Nat.toDigits 16 n, decide (c ≠ '}') = true := by
    intro c hc
    obtain ⟨d, -, rfl⟩ := exists_digitChar_of_mem_toDigits hc
    exact decide_eq_true (Nat.digitChar_ne '}' rfl)
  rw [unescape?, List.takeWhile_append_of_pos hdigits, List.dropWhile_append_of_pos hdigits]
  simp [hexValue_toDigits]

/-- An escaped character can be read back, whatever follows it. -/
theorem unescape?_escapeChar_append (c : Char) (rest : List Char) :
    unescape? (escapeChar c ++ rest) = some (c, rest) := by
  unfold escapeChar
  split_ifs with hnul htab hreturn hnewline hquote hbackslash hunprintable
  · rw [hnul]; rfl
  · rw [htab]; rfl
  · rw [hreturn]; rfl
  · rw [hnewline]; rfl
  · rw [hquote]; rfl
  · rw [hbackslash]; rfl
  · rw [List.append_assoc]
    exact (unescape?_hex c.toNat rest).trans (by rw [Char.ofNat_toNat])
  · exact unescape?_cons hbackslash rest

/-- No escaped character begins like the closing mark. -/
theorem escapeChar_append_ne (c : Char) (rest rest' : List Char) :
    escapeChar c ++ rest ≠ '"' :: rest' := by
  unfold escapeChar
  split_ifs with hnul htab hreturn hnewline hquote <;> simp_all

/-- What is written for a character holds no control character before the space: one that has no
short form is written by number. -/
theorem space_le_of_mem_escapeChar {c d : Char} (h : d ∈ escapeChar c) : 32 ≤ d.toNat := by
  unfold escapeChar at h
  split_ifs at h with hnul htab hreturn hnewline hquote hbackslash hunprintable
  iterate 6
    · rcases List.mem_pair.1 h with rfl | rfl
      · decide
      · decide
  · simp only [List.mem_append, List.mem_cons, List.not_mem_nil, or_false] at h
    rcases h with ((rfl | rfl | rfl) | hdigits) | rfl
    case inl.inr =>
      obtain ⟨n, hn, rfl⟩ := exists_digitChar_of_mem_toDigits hdigits
      exact space_le_digitChar hn
    all_goals decide
  · obtain rfl := List.mem_singleton.1 h
    exact Nat.le_of_not_lt fun hlt => hunprintable (isUnprintable_of_lt_space hlt)

/-! ## Quoted texts -/

/-- An escaped text ends at the first mark that is not part of an escaped character. -/
theorem escape_append_inj {s t rest rest' : List Char}
    (h : escape s ++ '"' :: rest = escape t ++ '"' :: rest') : s = t ∧ rest = rest' := by
  induction s generalizing t with
  | nil =>
    cases t with
    | nil => exact ⟨rfl, (List.cons.inj h).2⟩
    | cons d t =>
      rw [escape_cons, List.append_assoc] at h
      exact absurd h.symm (escapeChar_append_ne _ _ _)
  | cons c s ih =>
    rw [escape_cons, List.append_assoc] at h
    cases t with
    | nil => exact absurd h (escapeChar_append_ne _ _ _)
    | cons d t =>
      rw [escape_cons, List.append_assoc] at h
      -- both sides begin with an escaped character, which can be read back
      have hread := congrArg unescape? h
      rw [unescape?_escapeChar_append, unescape?_escapeChar_append] at hread
      obtain ⟨rfl, hmore⟩ := Prod.mk.inj (Option.some.inj hread)
      obtain ⟨rfl, rfl⟩ := ih hmore
      exact ⟨rfl, rfl⟩

/-- A quoted text and what follows it can be told from the two together. -/
theorem quote_append_inj {s t rest rest' : String} :
    quote s ++ rest = quote t ++ rest' ↔ s = t ∧ rest = rest' := by
  refine ⟨fun h => ?_, fun ⟨hs, hrest⟩ => hs ▸ hrest ▸ rfl⟩
  have hlist := congrArg String.toList h
  rw [String.toList_append, String.toList_append, toList_quote, toList_quote, List.cons_append,
    List.cons_append, List.append_assoc, List.append_assoc] at hlist
  obtain ⟨hs, hrest⟩ := escape_append_inj (List.cons.inj hlist).2
  exact ⟨String.toList_inj.1 hs, String.toList_inj.1 hrest⟩

theorem quote_inj {s t : String} : quote s = quote t ↔ s = t := by
  have h : quote s ++ "" = quote t ++ "" ↔ s = t ∧ "" = "" := quote_append_inj
  rwa [String.append_empty, String.append_empty, and_iff_left rfl] at h

/-- A quoted text holds no control character before the space. -/
theorem space_le_of_mem_quote {s : String} {d : Char} (h : d ∈ (quote s).toList) :
    32 ≤ d.toNat := by
  rw [toList_quote, List.mem_cons, List.mem_append, List.mem_singleton] at h
  rcases h with rfl | hescape | rfl
  · decide
  · obtain ⟨c, -, hc⟩ := List.mem_flatMap.1 hescape
    exact space_le_of_mem_escapeChar hc
  · decide

/-- A quoted text is on one line. -/
theorem newline_not_mem_quote (s : String) : '\n' ∉ (quote s).toList := by
  intro h
  exact absurd (space_le_of_mem_quote h) (by decide)

/-! ## Numbers -/

/-- A text all of whose characters have a property can be told from what follows it if that begins
with a character without the property, or is nothing. -/
theorem append_inj_of_all {p : Char → Bool} {l l' rest rest' : List Char}
    (hl : ∀ c ∈ l, p c = true) (hl' : ∀ c ∈ l', p c = true)
    (hrest : ∀ c ∈ rest.head?, p c = false) (hrest' : ∀ c ∈ rest'.head?, p c = false)
    (h : l ++ rest = l' ++ rest') : l = l' ∧ rest = rest' := by
  have htake : ∀ rest : List Char, (∀ c ∈ rest.head?, p c = false) → rest.takeWhile p = [] := by
    intro rest hrest
    cases rest with
    | nil => rfl
    | cons c rest => simp [hrest c rfl]
  have hsame := congrArg (List.takeWhile p) h
  rw [List.takeWhile_append_of_pos hl, List.takeWhile_append_of_pos hl', htake rest hrest,
    htake rest' hrest', List.append_nil, List.append_nil] at hsame
  rw [hsame] at h
  exact ⟨hsame, List.append_cancel_left h⟩

theorem isDigit_of_mem_toString {n : Nat} {c : Char} (hc : c ∈ (toString n).toList) :
    c.isDigit = true := by
  rw [Nat.toString_eq_ofList_toDigits, String.toList_ofList] at hc
  exact Nat.isDigit_of_mem_toDigits (by decide) (by decide) hc

/-- A number can be told from what follows it if that does not begin with a digit. -/
theorem toString_append_inj {m n : Nat} {rest rest' : String}
    (hrest : ∀ c ∈ rest.toList.head?, c.isDigit = false)
    (hrest' : ∀ c ∈ rest'.toList.head?, c.isDigit = false) :
    toString m ++ rest = toString n ++ rest' ↔ m = n ∧ rest = rest' := by
  refine ⟨fun h => ?_, fun ⟨hm, hrest⟩ => hm ▸ hrest ▸ rfl⟩
  have hlist := congrArg String.toList h
  rw [String.toList_append, String.toList_append] at hlist
  obtain ⟨hdigits, hmore⟩ := append_inj_of_all (fun _ => isDigit_of_mem_toString)
    (fun _ => isDigit_of_mem_toString) hrest hrest' hlist
  exact ⟨Nat.repr_injective (String.toList_inj.1 hdigits), String.toList_inj.1 hmore⟩

end PortMatch.Text
