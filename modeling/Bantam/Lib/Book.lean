import Mathlib.Data.List.Basic
import Mathlib.Tactic.Common

/-! Double entry on an abstract book of accounts: a movement takes an amount from one
account and gives it to another, and leaves every other account as it is. -/
namespace Book
variable {α : Type*} [DecidableEq α]

/-- What a movement of `amount` from `source` to `destination` adds to one account. -/
def delta (source destination : α) (amount : Int) (a : α) : Int :=
  (if a = source then -amount else 0) + (if a = destination then amount else 0)

def move (book : α → Int) (source destination : α) (amount : Int) : α → Int :=
  fun a => book a + delta source destination amount a

section
variable {source destination a : α} {amount : Int}

@[simp] theorem delta_source (h : source ≠ destination) :
    delta source destination amount source = -amount := by
  simp [delta, h]

@[simp] theorem delta_destination (h : source ≠ destination) :
    delta source destination amount destination = amount := by
  simp [delta, h.symm]

theorem delta_of_ne (hs : a ≠ source) (hd : a ≠ destination) :
    delta source destination amount a = 0 := by
  simp [delta, hs, hd]
end
end Book
