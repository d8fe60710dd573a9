import ImageBasedInstall.Text.Rewrite

/-!
# Infra IDs, byte by byte

`generateInfraID` of `controllers/imageclusterinstall_controller.go` on Go strings, which are byte
strings and need not be UTF-8. The reconciler's model has the same function on texts.
-/

namespace ImageBasedInstall.Raw

open Rewrite

def dash : UInt8 := 0x2D

/-- `[A-Za-z0-9]`. -/
def isAlphanum (rune : Nat) : Bool :=
  (0x41 ≤ rune && rune ≤ 0x5A) || (0x61 ≤ rune && rune ≤ 0x7A) || (0x30 ≤ rune && rune ≤ 0x39)

/-- `[A-Za-z0-9-]`. -/
def isNameRune (rune : Nat) : Bool := isAlphanum rune || rune == dash.toNat

def maxBaseLen : Nat := 21

/-- What comes before the random suffix. -/
def infraIDPrefix (base : List UInt8) : List UInt8 :=
  let base := replaceRunes (fun rune => !isNameRune rune) [dash] base
  let base := squeeze dash base
  let base := if base.length > maxBaseLen then base.take maxBaseLen else base
  base.rdropWhile (· == dash)

def generateInfraID (base suffix : List UInt8) : List UInt8 :=
  infraIDPrefix base ++ [dash] ++ suffix

end ImageBasedInstall.Raw
