import Mathlib.Data.List.Basic
import Zaphyl.Text
/-!
# Toml — flat documents

A flat TOML document is lines `key = value` of bare keys and values that are basic strings or booleans.  Its reading is a
table, or that it is no TOML, or that it has what is beyond a flat document, of which nothing is said.  Entries written
with only the quote and the backslash escaped read back exactly when no string has a control character besides the tab
(`readLines_stringLines`).
-/
namespace Toml

inductive Value
  | string (s : Str)
  | boolean (b : Bool)
deriving DecidableEq

def Value.string? : Value → Option Str
  | .string s => some s
  | .boolean _ => none

def Value.boolean? : Value → Option Bool
  | .string _ => none
  | .boolean b => some b

/-- Keys and their values, in the order of the document. -/
abbrev Table := List (Str × Value)

inductive Reading (α : Type)
  | result (a : α)
  | malformed
  | beyond
deriving DecidableEq

namespace Reading

variable {α β : Type}

def bind (r : Reading α) (f : α → Reading β) : Reading β :=
  match r with
  | .result a => f a
  | .malformed => .malformed
  | .beyond => .beyond

def map (f : α → β) (r : Reading α) : Reading β := r.bind (fun a => .result (f a))

@[simp] theorem bind_result (a : α) (f : α → Reading β) : (result a).bind f = f a := rfl

@[simp] theorem bind_malformed (f : α → Reading β) : (malformed : Reading α).bind f = malformed := rfl

@[simp] theorem map_result (f : α → β) (a : α) : (result a).map f = result (f a) := rfl

@[simp] theorem map_malformed (f : α → β) : (malformed : Reading α).map f = malformed := rfl

end Reading

/-! ## Basic strings -/

/-- The control characters that a basic string has only as escapes; the tab is not one of them. -/
def isControl (c : Char) : Bool := (c.toNat < 32 && c != '\t') || c.toNat == 127

def Clean (s : Str) : Prop := ∀ c ∈ s, isControl c = false

instance (s : Str) : Decidable (Clean s) :=
  decidable_of_iff (s.all (fun c => !isControl c) = true) (by simp [Clean])

/-- The character that a letter stands for after a backslash. -/
def shortEscape (c : Char) : Option Char :=
  if c = 'b' then some (Char.ofNat 8) else if c = 't' then some (Char.ofNat 9) else if c = 'n' then some (Char.ofNat 10)
  else if c = 'f' then some (Char.ofNat 12) else if c = 'r' then some (Char.ofNat 13)
  else if c = '"' then some '"' else if c = '\\' then some '\\' else none

def hexDigit (c : Char) : Option Nat :=
  if c.isDigit then some (c.toNat - 48)
  else if 'a' ≤ c && c ≤ 'f' then some (c.toNat - 87)
  else if 'A' ≤ c && c ≤ 'F' then some (c.toNat - 55)
  else none

/-- Where the reader of a string is: between characters, behind a backslash, or before the hexadecimal digits left, with
the value of those before. -/
inductive Within
  | text
  | escape
  | unicode (left value : Nat)

/-- The rest of a basic string behind its opening quote, and what follows the closing one. -/
def readString : Within → Str → Reading (Str × Str)
  | _, [] => .malformed
  | .text, c :: rest =>
    if c = '"' then .result ([], rest)
    else if c = '\\' then readString .escape rest
    else if isControl c then .malformed
    else (readString .text rest).map (fun r => (c :: r.1, r.2))
  | .escape, c :: rest =>
    match shortEscape c with
    | some d => (readString .text rest).map (fun r => (d :: r.1, r.2))
    | none =>
      if c = 'u' then readString (.unicode 4 0) rest
      else if c = 'U' then readString (.unicode 8 0) rest
      else .beyond
  | .unicode left value, c :: rest =>
    match hexDigit c with
    | none => .malformed
    | some digit =>
      if 1 < left then readString (.unicode (left - 1) (value * 16 + digit)) rest
      else if (value * 16 + digit).isValidChar then
        (readString .text rest).map (fun r => (Char.ofNat (value * 16 + digit) :: r.1, r.2))
      else .malformed

/-! ## Lines -/

def isBareKeyChar (c : Char) : Bool := c.isAlphanum || c == '_' || c == '-'

def skipBlanks (text : Str) : Str := text.dropWhile (fun c => c == ' ' || c == '\t')

def readValue : Str → Reading (Value × Str)
  | '"' :: rest =>
    -- two further quotes open a multi-line string
    if rest.take 2 = ['"', '"'] then .beyond else (readString .text rest).map (fun r => (.string r.1, r.2))
  | 't' :: 'r' :: 'u' :: 'e' :: rest => .result (.boolean true, rest)
  | 'f' :: 'a' :: 'l' :: 's' :: 'e' :: rest => .result (.boolean false, rest)
  | _ => .beyond

/-- The entry at the start of a text, and what follows from the end of its line on. -/
def readEntry (text : Str) : Reading ((Str × Value) × Str) :=
  let key := text.takeWhile isBareKeyChar
  match skipBlanks (text.dropWhile isBareKeyChar) with
  | '=' :: rest =>
    if key = [] then .beyond
    else
      (readValue (skipBlanks rest)).bind (fun r =>
        let after := skipBlanks r.2
        if after = [] || after.head? = some '\n' then .result ((key, r.1), after) else .beyond)
  | _ => .beyond

def readLines : Nat → Str → Reading Table
  | 0, _ => .beyond
  | fuel + 1, text =>
    match skipBlanks text with
    | [] => .result []
    | c :: rest =>
      if c = '\n' then readLines fuel rest
      else (readEntry (c :: rest)).bind (fun r => (readLines fuel r.2).map (fun table => r.1 :: table))

/-- The reading of a document.  Every round takes a character, so the length is fuel enough; no key comes twice. -/
def read (text : Str) : Reading Table :=
  (readLines (text.length + 1) text).bind (fun table =>
    if (table.map Prod.fst).Nodup then .result table else .malformed)

/-! ## Written strings -/

/-- A string with only the quote and the backslash escaped. -/
def escape (s : Str) : Str := s.flatMap (fun c => if c = '\\' || c = '"' then ['\\', c] else [c])

theorem escape_cons (c : Char) (s : Str) :
    escape (c :: s) = (if c = '\\' || c = '"' then ['\\', c] else [c]) ++ escape s := rfl

theorem clean_cons {c : Char} {s : Str} : Clean (c :: s) ↔ isControl c = false ∧ Clean s := List.forall_mem_cons

/-- A character put before a string that was read. -/
theorem map_cons_clean {c : Char} (hc : isControl c = false) (s rest : Str) :
    (if Clean s then Reading.result (s, rest) else .malformed).map (fun r => (c :: r.1, r.2)) =
      if Clean (c :: s) then .result (c :: s, rest) else .malformed := by
  have hclean : Clean (c :: s) ↔ Clean s := by
    rw [clean_cons, hc]
    exact and_iff_right rfl
  by_cases hs : Clean s
  · rw [if_pos hs, if_pos (hclean.2 hs), Reading.map_result]
  · rw [if_neg hs, if_neg (fun h => hs (hclean.1 h)), Reading.map_malformed]

/-- **A written string reads back exactly when it is clean**, and otherwise is no TOML. -/
theorem readString_escape (s rest : Str) :
    readString .text (escape s ++ '"' :: rest) = if Clean s then .result (s, rest) else .malformed := by
  induction s with
  | nil =>
    have hclean : Clean [] := fun c hc => by cases hc
    rw [if_pos hclean]
    rfl
  | cons c s ih =>
    rw [escape_cons]
    by_cases hspecial : c = '\\' ∨ c = '"'
    · have hcontrol : isControl c = false := by rcases hspecial with rfl | rfl <;> decide
      have hshort : shortEscape c = some c := by rcases hspecial with rfl | rfl <;> decide
      have hread : readString .text ('\\' :: c :: (escape s ++ '"' :: rest)) =
          (readString .text (escape s ++ '"' :: rest)).map (fun r => (c :: r.1, r.2)) := by
        simp [readString, hshort]
      have htext : ['\\', c] ++ escape s ++ '"' :: rest = '\\' :: c :: (escape s ++ '"' :: rest) := rfl
      rw [if_pos (by simpa using hspecial), htext, hread, ih]
      exact map_cons_clean hcontrol s rest
    · obtain ⟨hbackslash, hquote⟩ := not_or.1 hspecial
      have hread : readString .text (c :: (escape s ++ '"' :: rest)) =
          if isControl c then .malformed
          else (readString .text (escape s ++ '"' :: rest)).map (fun r => (c :: r.1, r.2)) := by
        simp [readString, hbackslash, hquote]
      have htext : [c] ++ escape s ++ '"' :: rest = c :: (escape s ++ '"' :: rest) := rfl
      rw [if_neg (by simpa using hspecial), htext, hread, ih]
      by_cases hcontrol : isControl c = true
      · rw [if_pos hcontrol, if_neg (fun h => by simp [(clean_cons.1 h).1] at hcontrol)]
      · rw [if_neg hcontrol]
        exact map_cons_clean (by simpa using hcontrol) s rest

/-! ## Written lines -/

def IsBareKey (key : Str) : Prop := key ≠ [] ∧ ∀ c ∈ key, isBareKeyChar c = true

instance (key : Str) : Decidable (IsBareKey key) :=
  decidable_of_iff (key ≠ [] ∧ key.all isBareKeyChar = true) (by simp [IsBareKey])

/-- A line with a string, as the writer puts it. -/
def stringLine (entry : Str × Str) : Str := entry.1 ++ " = \"".toList ++ escape entry.2 ++ "\"\n".toList

theorem skipBlanks_bare {c : Char} (hc : isBareKeyChar c = true) (text : Str) : skipBlanks (c :: text) = c :: text := by
  apply List.dropWhile_cons_of_neg
  intro hblank
  rcases (by simpa using hblank : c = ' ' ∨ c = '\t') with rfl | rfl
  · exact absurd hc (by decide)
  · exact absurd hc (by decide)

/-- The text behind the opening quote of a written string opens no multi-line string. -/
theorem take_two_escape (s rest : Str) : (escape s ++ "\"\n".toList ++ rest).take 2 ≠ ['"', '"'] := by
  cases s with
  | nil =>
    intro h
    have hsecond : ('\n' : Char) = '"' := (List.cons.inj (List.cons.inj h).2).1
    exact absurd hsecond (by decide)
  | cons c s =>
    rw [escape_cons]
    intro h
    by_cases hspecial : c = '\\' ∨ c = '"'
    · rw [if_pos (by simpa using hspecial)] at h
      have hfirst : ('\\' : Char) = '"' := (List.cons.inj h).1
      exact absurd hfirst (by decide)
    · rw [if_neg (by simpa using hspecial)] at h
      have hfirst : c = '"' := (List.cons.inj h).1
      exact hspecial (Or.inr hfirst)

theorem readEntry_stringLine {key : Str} (hkey : IsBareKey key) (s rest : Str) :
    readEntry (stringLine (key, s) ++ rest) =
      if Clean s then .result ((key, .string s), '\n' :: rest) else .malformed := by
  have htext : stringLine (key, s) ++ rest = key ++ ' ' :: '=' :: ' ' :: '"' :: (escape s ++ "\"\n".toList ++ rest) := by
    simp [stringLine]
  have hbreak : isBareKeyChar ' ' = false := by decide
  have htake : (stringLine (key, s) ++ rest).takeWhile isBareKeyChar = key := by
    rw [htext, List.takeWhile_append_of_pos hkey.2, List.takeWhile_cons_of_neg (by simp [hbreak]), List.append_nil]
  have hdrop : (stringLine (key, s) ++ rest).dropWhile isBareKeyChar =
      ' ' :: '=' :: ' ' :: '"' :: (escape s ++ "\"\n".toList ++ rest) := by
    rw [htext, List.dropWhile_append_of_pos hkey.2, List.dropWhile_cons_of_neg (by simp [hbreak])]
  have hvalue : readValue ('"' :: (escape s ++ "\"\n".toList ++ rest)) =
      if Clean s then .result (.string s, '\n' :: rest) else .malformed := by
    have hstring : escape s ++ "\"\n".toList ++ rest = escape s ++ '"' :: ('\n' :: rest) := by simp
    rw [readValue, if_neg (take_two_escape s rest), hstring, readString_escape]
    by_cases hs : Clean s
    · rw [if_pos hs, if_pos hs, Reading.map_result]
    · rw [if_neg hs, if_neg hs, Reading.map_malformed]
  unfold readEntry
  simp only [htake, hdrop]
  show (if key = [] then Reading.beyond else _) = _
  rw [if_neg hkey.1]
  show Reading.bind (readValue ('"' :: (escape s ++ "\"\n".toList ++ rest))) _ = _
  rw [hvalue]
  by_cases hs : Clean s
  · rw [if_pos hs, if_pos hs]
    rfl
  · rw [if_neg hs, if_neg hs]
    rfl

/-- One line of a document. -/
theorem readLines_stringLine {key : Str} (hkey : IsBareKey key) (s rest : Str) (fuel : Nat) :
    readLines (fuel + 2) (stringLine (key, s) ++ rest) =
      if Clean s then (readLines fuel rest).map (fun table => (key, .string s) :: table) else .malformed := by
  have hentry := readEntry_stringLine hkey s rest
  obtain ⟨c, key', rfl⟩ := List.exists_cons_of_ne_nil hkey.1
  have hc : isBareKeyChar c = true := hkey.2 c List.mem_cons_self
  have hline : c ≠ '\n' := fun h => absurd (h ▸ hc) (by decide)
  have htext : stringLine (c :: key', s) ++ rest = c :: (key' ++ " = \"".toList ++ escape s ++ "\"\n".toList ++ rest) := rfl
  have hnext : readLines (fuel + 1) ('\n' :: rest) = readLines fuel rest := by
    have hskip : skipBlanks ('\n' :: rest) = '\n' :: rest := List.dropWhile_cons_of_neg (by decide)
    rw [readLines, hskip]
    rfl
  rw [htext] at hentry ⊢
  rw [readLines, skipBlanks_bare hc]
  simp only
  rw [if_neg hline, hentry]
  by_cases hs : Clean s
  · rw [if_pos hs, if_pos hs, Reading.bind_result, hnext]
  · rw [if_neg hs, if_neg hs, Reading.bind_malformed]

/-- **A document that starts with written lines reads as their entries exactly when every string is clean.** -/
theorem readLines_stringLines {entries : List (Str × Str)} (hkeys : ∀ e ∈ entries, IsBareKey e.1) (rest : Str)
    (fuel : Nat) :
    readLines (fuel + 2 * entries.length) (entries.flatMap stringLine ++ rest) =
      if ∀ e ∈ entries, Clean e.2 then
        (readLines fuel rest).map (fun table => entries.map (fun e => (e.1, Value.string e.2)) ++ table)
      else .malformed := by
  induction entries with
  | nil =>
    rw [if_pos (fun e he => by cases he)]
    show readLines fuel rest = (readLines fuel rest).map id
    cases readLines fuel rest <;> rfl
  | cons e entries ih =>
    obtain ⟨hkey, hrest⟩ := List.forall_mem_cons.1 hkeys
    have hfuel : fuel + 2 * (e :: entries).length = fuel + 2 * entries.length + 2 := by
      rw [List.length_cons]
      omega
    have hall : (∀ x ∈ e :: entries, Clean x.2) ↔ Clean e.2 ∧ ∀ x ∈ entries, Clean x.2 := List.forall_mem_cons
    rw [List.flatMap_cons, List.append_assoc, hfuel, readLines_stringLine hkey, ih hrest]
    by_cases he : Clean e.2
    · rw [if_pos he]
      by_cases hes : ∀ e ∈ entries, Clean e.2
      · rw [if_pos hes, if_pos (hall.2 ⟨he, hes⟩)]
        cases readLines fuel rest <;> rfl
      · rw [if_neg hes, if_neg (fun h => hes (hall.1 h).2), Reading.map_malformed]
    · rw [if_neg he, if_neg (fun h => he (hall.1 h).1)]

theorem length_stringLines (entries : List (Str × Str)) : 2 * entries.length ≤ (entries.flatMap stringLine).length := by
  induction entries with
  | nil => exact Nat.le_refl _
  | cons e entries ih =>
    have hline : 2 ≤ (stringLine e).length := by
      simp only [stringLine, List.length_append]
      have hend : "\"\n".toList.length = 2 := by decide
      omega
    rw [List.length_cons, List.flatMap_cons, List.length_append]
    omega

/-- The reading of written lines and what follows them, which is read with the fuel that is left. -/
theorem read_stringLines {entries : List (Str × Str)} (hkeys : ∀ e ∈ entries, IsBareKey e.1) (rest : Str) :
    ∃ fuel, rest.length < fuel ∧ read (entries.flatMap stringLine ++ rest) =
      if ∀ e ∈ entries, Clean e.2 then
        (readLines fuel rest).bind (fun table =>
          let table := entries.map (fun e => (e.1, Value.string e.2)) ++ table
          if (table.map Prod.fst).Nodup then .result table else .malformed)
      else .malformed := by
  have hlength := length_stringLines entries
  refine ⟨(entries.flatMap stringLine).length - 2 * entries.length + rest.length + 1, by omega, ?_⟩
  have hfuel : (entries.flatMap stringLine ++ rest).length + 1 =
      (entries.flatMap stringLine).length - 2 * entries.length + rest.length + 1 + 2 * entries.length := by
    rw [List.length_append]
    omega
  rw [read, hfuel, readLines_stringLines hkeys]
  split
  · cases readLines ((entries.flatMap stringLine).length - 2 * entries.length + rest.length + 1) rest <;> rfl
  · rfl

end Toml
