/-
Addresses and words as the bytes that a frame carries, the most significant first.
-/
import Mathlib.Data.BitVec

namespace EmacZero

def macBytes (mac : BitVec 48) : List (BitVec 8) :=
  [mac.extractLsb' 40 8, mac.extractLsb' 32 8, mac.extractLsb' 24 8, mac.extractLsb' 16 8,
    mac.extractLsb' 8 8, mac.extractLsb' 0 8]

def ipBytes (ip : BitVec 32) : List (BitVec 8) :=
  [ip.extractLsb' 24 8, ip.extractLsb' 16 8, ip.extractLsb' 8 8, ip.extractLsb' 0 8]

/-- `our_mac` and `our_ip`. -/
structure NetOur where
  mac : BitVec 48
  ip : BitVec 32
deriving Repr, DecidableEq

def wordBytes (word : BitVec 16) : List (BitVec 8) :=
  [word.extractLsb' 8 8, word.extractLsb' 0 8]

end EmacZero
