import PostfixSheet.Text.Basic

/-!
UTF-8. The writer is the core library's; the reader goes through the bytes one at a time and says
where and why the first bytes that are not UTF-8 stand.
-/

namespace PostfixSheet.Text

def bytes (text : Text) : List UInt8 := text.flatMap String.utf8EncodeChar

/-- Why bytes do not spell a character. -/
inductive ByteFault
  /-- no character starts with the byte -/
  | start
  /-- the byte after those named does not continue the character that they start -/
  | continuation
  /-- the text ends inside a character -/
  | cutShort
deriving DecidableEq, Repr

/-- The first bytes of a file that do not spell a character: `width` of them from `position` on,
of which `first` is the first. -/
structure Undecodable where
  fault : ByteFault
  first : UInt8
  position : Nat
  width : Nat
deriving DecidableEq, Repr

def ByteFault.reason : ByteFault → String
  | .start => "invalid start byte"
  | .continuation => "invalid continuation byte"
  | .cutShort => "unexpected end of data"

def Undecodable.message (bad : Undecodable) : Text :=
  "'utf-8' codec can't decode ".toList
    ++ (if bad.width = 1 then
          "byte 0x".toList ++ hex 2 bad.first.toNat ++ " in position ".toList ++ ofNat bad.position
        else
          "bytes in position ".toList ++ ofNat bad.position ++ ['-']
            ++ ofNat (bad.position + bad.width - 1))
    ++ ": ".toList ++ bad.fault.reason.toList

/-- A character of which `seen` bytes have been read. The next byte has to lie between `low` and
`high`, and `more` further bytes follow it. -/
structure PartialChar where
  first : UInt8
  seen : Nat
  value : Nat
  low : Nat
  high : Nat
  more : Nat

/-- What a first byte begins: a whole character, the start of a longer one, or nothing. The bounds
on the second byte leave out overlong spellings, surrogates and values beyond the last character. -/
def leadByte (b : UInt8) : Option (Char ⊕ PartialChar) :=
  let n := b.toNat
  if n < 0x80 then some (.inl (Char.ofNat n))
  else if n < 0xc2 then none
  else if n < 0xe0 then some (.inr ⟨b, 1, n - 0xc0, 0x80, 0xbf, 0⟩)
  else if n < 0xf0 then
    let low := if n = 0xe0 then 0xa0 else 0x80
    let high := if n = 0xed then 0x9f else 0xbf
    some (.inr ⟨b, 1, n - 0xe0, low, high, 1⟩)
  else if n < 0xf5 then
    let low := if n = 0xf0 then 0x90 else 0x80
    let high := if n = 0xf4 then 0x8f else 0xbf
    some (.inr ⟨b, 1, n - 0xf0, low, high, 2⟩)
  else none

/-- Reads the bytes from `position` on; `unfinished` is the character that the bytes just before
belong to, and `done` holds the characters so far, the last one first. -/
def ofBytesFrom (position : Nat) (unfinished : Option PartialChar) (done : Text) :
    List UInt8 → Except Undecodable Text
  | [] => match unfinished with
      | none => .ok done.reverse
      | some u => .error ⟨.cutShort, u.first, position - u.seen, u.seen⟩
  | b :: rest => match unfinished with
      | none => match leadByte b with
          | none => .error ⟨.start, b, position, 1⟩
          | some (.inl c) => ofBytesFrom (position + 1) none (c :: done) rest
          | some (.inr u) => ofBytesFrom (position + 1) (some u) done rest
      | some u =>
          if u.low ≤ b.toNat ∧ b.toNat ≤ u.high then
            let value := 64 * u.value + (b.toNat - 0x80)
            match u.more with
            | 0 => ofBytesFrom (position + 1) none (Char.ofNat value :: done) rest
            | more + 1 =>
                ofBytesFrom (position + 1) (some ⟨u.first, u.seen + 1, value, 0x80, 0xbf, more⟩)
                  done rest
          else .error ⟨.continuation, u.first, position - u.seen, u.seen⟩

def ofBytes (source : List UInt8) : Except Undecodable Text := ofBytesFrom 0 none [] source

end PostfixSheet.Text
