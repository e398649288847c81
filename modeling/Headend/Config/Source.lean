import Headend.Config.Dispatch
import Headend.Text.Utf8

/-!
# The lines of a configuration

A configuration is octets. Its lines end at line feeds; each is read as text, loses the ends of line
at its end, and is cut to the size that a line may have.

Facts: `size_text_le` (a line is never longer), `segments_append` (a line feed separates what stands
before it from what follows).
-/

namespace Headend.Config

open Headend.Text (Octets)

/-- The most octets that a line may have. -/
def maxLineSize : Nat := 511

/-- The octet that ends a line. -/
def lineFeed : UInt8 := 10

/-- The parts of octets that line feeds end, and what follows the last one if it is not empty. -/
def segments : Octets → List Octets
  | [] => []
  | b :: r =>
    if b = lineFeed then [] :: segments r
    else
      match segments r with
      | [] => [[b]]
      | s :: rest => (b :: s) :: rest

/-- One line of a configuration: its number, counted from one, its text, and whether the text was
cut. -/
structure SourceLine where
  number : Nat
  text : String
  isCut : Bool
deriving DecidableEq

/-- The line that a segment stands for. -/
def SourceLine.ofSegment (number : Nat) (segment : Octets) : SourceLine :=
  let cs := stripEnds (Text.decode segment)
  ⟨number, String.ofList (Text.takeSize maxLineSize cs), decide (maxLineSize < Text.size cs)⟩

/-- The lines from a number on. -/
def linesFrom : Nat → List Octets → List SourceLine
  | _, [] => []
  | n, s :: rest => .ofSegment n s :: linesFrom (n + 1) rest

/-- The lines of a configuration. -/
def lines (bs : Octets) : List SourceLine := linesFrom 1 (segments bs)

/-- The records of reading a line. -/
def SourceLine.records (l : SourceLine) : List Record :=
  if l.isCut then [.warn s!"Config line {l.number} too long, truncated"] else []

/-- A number with at least three digits. -/
def threeDigits (n : Nat) : String :=
  let digits := toString n
  String.ofList (List.replicate (3 - digits.length) '0') ++ digits

/-- The record that shows a line. -/
def SourceLine.echo (l : SourceLine) : Record := .trace (threeDigits l.number ++ " " ++ l.text)

/-- What reading lines did: whether a line failed, the draft it leaves, and the records. -/
structure Parsed where
  result : Except ConfigError Unit
  draft : Draft
  records : List Record

/-- Carries out lines one after the other, up to the first that fails. -/
def parseLines (chain : List Section) (draft : Draft) : List SourceLine → Parsed
  | [] => ⟨.ok (), draft, []⟩
  | l :: rest =>
    let done := dispatch chain draft l.text
    match done.outcome with
    | .error e => ⟨.error e, done.draft, l.records ++ done.records⟩
    | .ok _ =>
      let after := parseLines chain done.draft rest
      ⟨after.result, after.draft, l.records ++ done.records ++ after.records⟩

/-- Carries out a configuration. -/
def parse (chain : List Section) (draft : Draft) (bs : Octets) : Parsed :=
  parseLines chain draft (lines bs)

/-! ### Lines -/

theorem size_text_le (n : Nat) (s : Octets) :
    Text.size (SourceLine.ofSegment n s).text.toList ≤ maxLineSize := by
  simp only [SourceLine.ofSegment, String.toList_ofList]
  exact Text.size_takeSize ..

theorem segments_append (a b : Octets) :
    segments (a ++ lineFeed :: b) = segments (a ++ [lineFeed]) ++ segments b := by
  induction a with
  | nil => simp [segments]
  | cons x r ih =>
    have hne : segments (r ++ [lineFeed]) ≠ [] := by
      cases r with
      | nil => simp [segments]
      | cons y t =>
        simp only [List.cons_append, segments]
        split
        · simp
        · split <;> simp
    simp only [List.cons_append, segments]
    split
    · simp [ih]
    · rw [ih]
      match hs : segments (r ++ [lineFeed]) with
      | [] => exact absurd hs hne
      | s :: t => simp

end Headend.Config
