import StreamFraming.Holds
import StreamFraming.Scanner

/-!
# Scripted scanners

A scripted scanner does not look at the bytes. Its n-th scan, over all sessions and directions,
plays the n-th step of its script, and one more step stands for all that follow. A step may touch
the two cells and post an anomaly before it gives its verdict; what it finds in a cell is a
`Glimpse`.
-/

namespace StreamFraming

inductive Touch where
  | count
  | append
  | look
  deriving DecidableEq, Repr

inductive Glimpse where
  | number (n : UInt32)
  | text (s : String)
  deriving DecidableEq, Repr

namespace Touch

open Holds

variable {α : Type} [Holds α UInt32] [Holds α String]

def apply (cell : Option α) : Touch → Option α × Option Glimpse
  | .count =>
    match claim (0 : UInt32) cell with
    | some n => (some (keep (n + 1)), some (.number (n + 1)))
    | none => (cell, none)
  | .append =>
    match claim "" cell with
    | some s => (some (keep (s.push 'x')), some (.text (s.push 'x')))
    | none => (cell, none)
  | .look => (cell, ((cell.bind kept? : Option UInt32)).map .number)

end Touch

structure Script.Step where
  verdict : Verdict := .search
  point : UInt32 := 0
  own : Option Touch := none
  peer : Option Touch := none
  post : Option String := none
  deriving DecidableEq, Repr

structure Script where
  steps : List Script.Step := []
  rest : Script.Step := {}
  deriving DecidableEq, Repr

namespace Script

variable {α : Type} [Holds α UInt32] [Holds α String]

def step (s : Script) (n : Nat) : Step := s.steps[n]?.getD s.rest

def touched (touch : Option Touch) (cell : Option α) : Option α :=
  match touch with
  | some t => (t.apply cell).1
  | none => cell

/-- What a step finds in a cell: nothing to tell if it does not touch it. -/
def glimpse (touch : Option Touch) (cell : Option α) : Option (Option Glimpse) :=
  touch.map fun t => (t.apply cell).2

def scanner (name : String) (s : Script) : Scanner α Tally where
  name
  memory := {}
  scan memory sight _ :=
    let step := s.step memory.calls.toNat
    { verdict := step.verdict
      point := step.point
      own := touched step.own sight.own
      peer := touched step.peer sight.peer
      memory := memory.count 0
      raised := (step.post.map Anomaly.messageSize).toList }

end Script

end StreamFraming
