import Headend.Text.Quoted

/-!
# Text for a terminal

A log is looked at in a terminal, and there some control characters are commands. They stand in it
by their number. All other characters stand for themselves, line ends and tabs among them.

Facts: `escape_of_forall` (a text without commands stays as it is).
-/

namespace Headend.Text

/-- The bell, the backspace, the form feed, the escape and the delete character. -/
def shortCommands : List Char := ['\x07', '\x08', '\x0c', '\x1b', '\x7f']

/-- Whether a character is one of the control characters above the first 128. -/
def isHighControl (c : Char) : Bool := 0x80 ≤ c.toNat && c.toNat ≤ 0x9f

/-- A number in hexadecimal with at least two digits. -/
def twoDigits (n : Nat) : List Char := (if n < 16 then ['0'] else []) ++ hexadecimal n

/-- A character as it stands in a log. -/
def escapeChar (c : Char) : List Char :=
  if shortCommands.contains c then ['\\', 'x'] ++ twoDigits c.toNat
  else if isHighControl c then ['\\', 'u', '\x7b'] ++ hexadecimal c.toNat ++ ['\x7d']
  else [c]

/-- A text as it stands in a log. -/
def escape (s : String) : String := String.ofList (s.toList.flatMap escapeChar)

theorem escapeChar_of_not {c : Char} (hs : shortCommands.contains c = false)
    (hh : isHighControl c = false) : escapeChar c = [c] := by
  rw [escapeChar, hs, hh]
  rfl

theorem escape_of_forall {s : String}
    (h : ∀ c ∈ s.toList, shortCommands.contains c = false ∧ isHighControl c = false) :
    escape s = s := by
  have key : ∀ cs : List Char, (∀ c ∈ cs, shortCommands.contains c = false ∧
      isHighControl c = false) → cs.flatMap escapeChar = cs := by
    intro cs
    induction cs with
    | nil => intro _; rfl
    | cons c r ih =>
      intro hc
      have hr := ih fun d hd => hc d (List.mem_cons_of_mem _ hd)
      have ⟨h1, h2⟩ := hc c List.mem_cons_self
      rw [List.flatMap_cons, escapeChar_of_not h1 h2, hr]
      rfl
  rw [escape, key _ h, String.ofList_toList]

end Headend.Text
