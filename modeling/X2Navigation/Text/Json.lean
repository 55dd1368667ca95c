import X2Navigation.Text.Numeral

/-! Compact JSON text of numbers and objects. A key has no characters that need an escape.
What is printed is read back, so no object or member is lost or read twice. -/

namespace X2Navigation.Text

inductive Json where
  | number (n : Numeral)
  | object (members : List (List Char × Json))

/-- A key between its quotes. -/
def printKey (key : List Char) : List Char := '\x22' :: (key ++ ['\x22', ':'])

/-- Neither a quote, a backslash nor a control character. -/
def isPlain (c : Char) : Bool := c ≠ '\x22' && c ≠ '\\' && ' ' ≤ c

def readKey : List Char → Option (List Char × List Char)
  | '\x22' :: text =>
    match text.dropWhile isPlain with
    | '\x22' :: ':' :: rest => some (text.takeWhile isPlain, rest)
    | _ => none
  | _ => none

theorem readKey_print {key : List Char} (h : ∀ c ∈ key, isPlain c = true) (rest : List Char) :
    readKey (printKey key ++ rest) = some (key, rest) := by
  have htext : printKey key ++ rest = '\x22' :: (key ++ '\x22' :: ':' :: rest) := by
    simp [printKey]
  have hquote : isPlain '\x22' = false := by decide
  rw [htext, readKey, List.takeWhile_append_of_pos h, List.dropWhile_append_of_pos h]
  simp [hquote]

namespace Json

mutual

def print : Json → List Char
  | number n => n.print
  | object [] => ['\x7b', '\x7d']
  | object ((key, value) :: members) =>
    '\x7b' :: (printKey key ++ (value.print ++ printMembers members))

/-- The members after the first, and the end of the object. -/
def printMembers : List (List Char × Json) → List Char
  | [] => ['\x7d']
  | (key, value) :: members =>
    ',' :: (printKey key ++ (value.print ++ printMembers members))

end

mutual

/-- The value in front of a text, with what follows it. -/
def read : ℕ → List Char → Option (Json × List Char)
  | 0, _ => none
  | _ + 1, '\x7b' :: '\x7d' :: text => some (object [], text)
  | fuel + 1, '\x7b' :: text => do
    let (key, text) ← readKey text
    let (value, text) ← read fuel text
    let (members, text) ← readMembers fuel text
    return (object ((key, value) :: members), text)
  | _ + 1, text => do
    let (n, text) ← Numeral.read text
    return (number n, text)

def readMembers : ℕ → List Char → Option (List (List Char × Json) × List Char)
  | 0, _ => none
  | _ + 1, '\x7d' :: text => some ([], text)
  | fuel + 1, ',' :: text => do
    let (key, text) ← readKey text
    let (value, text) ← read fuel text
    let (members, text) ← readMembers fuel text
    return ((key, value) :: members, text)
  | _ + 1, _ => none

end

/-- A text that is one value. -/
def parse (text : List Char) : Option Json :=
  match read text.length text with
  | some (value, []) => some value
  | _ => none

mutual

def WellFormed : Json → Prop
  | number n => n.WellFormed
  | object members => MembersWellFormed members

def MembersWellFormed : List (List Char × Json) → Prop
  | [] => True
  | (key, value) :: members =>
    (∀ c ∈ key, isPlain c = true) ∧ value.WellFormed ∧ MembersWellFormed members

end

/-! ### What is printed is read -/

/-- No number goes on with what follows a member. -/
theorem printMembers_delimited (members : List (List Char × Json)) (rest : List Char) :
    Delimited (printMembers members ++ rest) := by
  intro c hc
  cases members with
  | nil =>
    obtain rfl := Option.some.inj hc
    decide
  | cons member members =>
    obtain rfl := Option.some.inj hc
    decide

/-- A number does not begin with a brace. -/
theorem print_number_head {n : Numeral} (h : n.WellFormed) :
    ∃ c text, n.print = c :: text ∧ c ≠ '\x7b' := by
  obtain ⟨k, hwhole⟩ := h.whole
  obtain ⟨c, text, htext⟩ := List.exists_cons_of_ne_nil hwhole.ne_nil
  unfold Numeral.print
  cases n.negative with
  | true => exact ⟨'-', _, rfl, by decide⟩
  | false =>
    rw [htext]
    refine ⟨c, _, rfl, ?_⟩
    rintro rfl
    have hdigit := hwhole.isDigit '\x7b' (by simp [htext])
    revert hdigit
    decide

theorem read_number {n : Numeral} (h : n.WellFormed) {rest : List Char} (hrest : Delimited rest)
    (fuel : ℕ) : read (fuel + 1) (n.print ++ rest) = some (number n, rest) := by
  obtain ⟨c, text, htext, hc⟩ := print_number_head h
  have hread := Numeral.read_print n h hrest
  rw [htext, List.cons_append] at hread ⊢
  rw [read]
  · rw [hread]
    rfl
  all_goals simp [hc]

/-- The text of a first member does not close the object. -/
theorem read_member (fuel : ℕ) (key : List Char) (text : List Char) :
    read (fuel + 1) ('\x7b' :: (printKey key ++ text)) = (do
      let (key, text) ← readKey (printKey key ++ text)
      let (value, text) ← read fuel text
      let (members, text) ← readMembers fuel text
      return (object ((key, value) :: members), text)) := by
  rw [printKey, List.cons_append, read]
  rintro _ ⟨⟩

mutual

theorem read_print (j : Json) (h : j.WellFormed) {fuel : ℕ} (hfuel : j.print.length ≤ fuel)
    {rest : List Char} (hrest : Delimited rest) : read fuel (j.print ++ rest) = some (j, rest) := by
  match j, h, fuel, hfuel with
  | number n, h, 0, hfuel =>
    obtain ⟨c, text, htext, -⟩ := print_number_head (n := n) (by simpa [WellFormed] using h)
    simp [print, htext] at hfuel
  | number n, h, fuel + 1, _ =>
    rw [print]
    exact read_number (by simpa [WellFormed] using h) hrest fuel
  | object [], _, 0, hfuel => simp [print] at hfuel
  | object [], _, fuel + 1, _ => simp [print, read]
  | object ((key, value) :: members), _, 0, hfuel => simp [print] at hfuel
  | object ((key, value) :: members), h, fuel + 1, hfuel =>
    obtain ⟨hkey, hvalue, hmembers⟩ := by simpa [WellFormed, MembersWellFormed] using h
    simp only [print, List.length_cons, List.length_append] at hfuel
    rw [print, List.cons_append, List.append_assoc, List.append_assoc, read_member,
      readKey_print hkey]
    dsimp only [Option.bind_eq_bind, Option.bind_some]
    rw [read_print value hvalue (by omega) (printMembers_delimited members rest)]
    dsimp only [Option.bind_some]
    rw [readMembers_print members hmembers (by omega) rest]
    rfl

theorem readMembers_print (members : List (List Char × Json)) (h : MembersWellFormed members)
    {fuel : ℕ} (hfuel : (printMembers members).length ≤ fuel) (rest : List Char) :
    readMembers fuel (printMembers members ++ rest) = some (members, rest) := by
  match members, h, fuel, hfuel with
  | [], _, 0, hfuel => simp [printMembers] at hfuel
  | [], _, fuel + 1, _ => simp [printMembers, readMembers]
  | (key, value) :: members, _, 0, hfuel => simp [printMembers] at hfuel
  | (key, value) :: members, h, fuel + 1, hfuel =>
    obtain ⟨hkey, hvalue, hmembers⟩ := by simpa [MembersWellFormed] using h
    simp only [printMembers, List.length_cons, List.length_append] at hfuel
    rw [printMembers, List.cons_append, List.append_assoc, List.append_assoc, readMembers,
      readKey_print hkey]
    dsimp only [Option.bind_eq_bind, Option.bind_some]
    rw [read_print value hvalue (by omega) (printMembers_delimited members rest)]
    dsimp only [Option.bind_some]
    rw [readMembers_print members hmembers (by omega) rest]
    rfl

end

theorem parse_print (j : Json) (h : j.WellFormed) : parse j.print = some j := by
  have hread := read_print j h le_rfl (show Delimited [] by simp [Delimited])
  rw [List.append_nil] at hread
  rw [parse, hread]

end Json

end X2Navigation.Text
