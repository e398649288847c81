import Headend.Text.Replace
import Headend.Tuner.Frontend

/-!
# Listing the front-ends

The front-ends of the host stand in a directory of adapters, each a directory of front-ends. They
are listed by the numbers in their names, and shown with colours if the terminal has them.

Facts: `numbered?_of_no_word` (other names are passed over), `numbered?_append` (a name that is the
word followed by a text has the number of the text), `paint_plain`.
-/

namespace Headend.Tuner

open Headend.Host

/-- A front-end of the host. -/
structure Card where
  card : UInt32
  tuner : UInt32
  path : String
  /-- The name and the kind, if the device tells them. -/
  info : Option (String × String)
deriving DecidableEq

/-- The number in a name that is a word followed by a number. -/
def numbered? (word name : String) : Option UInt32 :=
  if word.toList.isPrefixOf name.toList then
    Number.word? (String.ofList (name.toList.drop word.length))
  else none

/-- The entries of a directory whose names are a word followed by a number: the number and the
path. -/
def numberedEntries (fs : FileSystem) (word directory : String) :
    Except Failure (List (UInt32 × String)) :=
  (fs.listDirectory directory).map fun names =>
    names.filterMap fun name => (numbered? word name).map (·, joinPath directory name)

/-- What a front-end tells about itself. -/
def cardInfo (w : World) (path : String) : Option (String × String) :=
  match identify w path with
  | .ok d => some (d.name, Kind.typeName d.type)
  | .error _ => none

/-- The front-ends of one adapter. -/
def cardsOfAdapter (w : World) (card : UInt32) (directory : String) :
    Except Failure (List Card) :=
  (numberedEntries w.files "frontend" directory).map fun entries =>
    entries.map fun (tuner, path) => { card, tuner, path, info := cardInfo w path }

/-- Whether a front-end may be listed before another: by card, then by tuner. -/
def Card.before (a b : Card) : Bool :=
  if a.card ≠ b.card then a.card < b.card else a.tuner ≤ b.tuner

/-- The front-ends below a directory of adapters, in order; those with the same numbers stay in the
order in which they were found. An adapter that cannot be read makes the listing fail. -/
def listCards (w : World) (root : String) : Except Failure (List Card) := do
  let adapters ← numberedEntries w.files "adapter" root
  let cards ← adapters.mapM fun (card, directory) => cardsOfAdapter w card directory
  return cards.flatten.mergeSort Card.before

/-! ### Showing the list -/

/-- The styles of a terminal that are used. -/
inductive Style where
  | bold | red | green | yellow | cyan
deriving DecidableEq

/-- The number of a style. -/
def Style.code : Style → String
  | bold => "1"
  | red => "31"
  | green => "32"
  | yellow => "33"
  | cyan => "36"

/-- The sequence that starts a style. -/
def Style.start (s : Style) : String := "\x1b[" ++ s.code ++ "m"

/-- The sequence that ends every style. -/
def styleEnd : String := "\x1b[0m"

/-- A text in a style, if the terminal has styles. Where the text itself ends all styles, the style
starts anew. -/
def paint (styled : Bool) (s : Style) (text : String) : String :=
  if styled then
    let inner :=
      Text.replace text.toList styleEnd.toList (styleEnd ++ s.start).toList
    s.start ++ String.ofList inner ++ styleEnd
  else text

/-- The line of a front-end. -/
def Card.line (styled : Bool) (c : Card) : String :=
  paint styled .bold s!"card {c.card.toNat} tuner {c.tuner.toNat}" ++ ": " ++
    (match c.info with
      | some (name, kind) => paint styled .green name ++ " [" ++ paint styled .cyan kind ++ "]"
      | none => paint styled .red "cannot query device") ++ "\n"

/-- The text of a list of front-ends. -/
def cardsText (styled : Bool) (cards : List Card) : String :=
  if cards = [] then paint styled .yellow "No DVB front-end found" ++ "\n"
  else String.join (cards.map (Card.line styled))

theorem numbered?_of_no_word {word name : String}
    (h : word.toList.isPrefixOf name.toList = false) : numbered? word name = none := by
  simp [numbered?, h]

theorem numbered?_append (word rest : String) :
    numbered? word (word ++ rest) = Number.word? rest := by
  have h : (word.toList ++ rest.toList).drop word.length = rest.toList := by
    rw [← String.length_toList, List.drop_left]
  simp [numbered?, String.toList_append, h]

@[simp] theorem paint_plain (s : Style) (text : String) : paint false s text = text := rfl

end Headend.Tuner
