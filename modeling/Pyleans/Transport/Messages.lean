import Mathlib

namespace Pyleans

inductive MessageType
  | request
  | response
  | oneWay
  | ping
  | pong
  | error
deriving DecidableEq, Repr

namespace MessageType

def code : MessageType → ℕ
  | request => 0x01
  | response => 0x02
  | oneWay => 0x03
  | ping => 0x04
  | pong => 0x05
  | error => 0x06

def all : List MessageType := [request, response, oneWay, ping, pong, error]

def ofCode (code : ℕ) : Option MessageType := all.find? fun t ↦ t.code = code

theorem ofCode_eq_some {n : ℕ} {t : MessageType} : ofCode n = some t ↔ t.code = n := by
  constructor
  · intro h
    simpa using List.find?_some h
  · rintro rfl
    cases t <;> rfl

theorem code_lt (t : MessageType) : t.code < 256 ^ 1 := by cases t <;> decide

end MessageType

end Pyleans
