import AudioCatalog.Wave.Bytes

/-!
# Blocks of tags

A block of tags can stand before a container.  It has a version from two to four and a
size, and holds frames up to the first one whose name is not made of capital letters and
digits; the rest is padding.  What the tags say does not count here, but the frames have
to lie inside the block.
-/

namespace AudioCatalog.Wave

/-- How the frames of a version are laid out: the number of bytes of a name and of a size,
what each byte of a size is worth more than the one behind it, and the bits of the flags
that have to be zero, if there are flags. -/
structure FrameLayout where
  nameWidth : Nat
  sizeWidth : Nat
  base : Nat
  unused : Option Nat

namespace FrameLayout

/-- The layout of a version. -/
def ofVersion (version : Nat) : FrameLayout :=
  if version = 2 then ⟨3, 3, 256, none⟩
  else if version = 3 then ⟨4, 4, 256, some 0x1F1F⟩
  else ⟨4, 4, 128, some 0x8FB0⟩

/-- The number of bytes of the flags. -/
def flagWidth (layout : FrameLayout) : Nat :=
  if layout.unused.isSome then 2 else 0

/-- The number of bytes in front of what a frame holds. -/
def headingWidth (layout : FrameLayout) : Nat :=
  layout.nameWidth + layout.sizeWidth + layout.flagWidth

end FrameLayout

/-- Reads a number with the highest byte first, where each byte counts as its remainder on
division by `base`. -/
def readDigits (width base : Nat) : Reader Nat := do
  return (← readBytes width).foldl (fun value byte => value * base + byte.toNat % base) 0

/-- Whether a byte can stand in the name of a frame. -/
def isFrameLetter (byte : UInt8) : Bool :=
  (48 ≤ byte && byte ≤ 57) || (65 ≤ byte && byte ≤ 90)

/-- Leaves out the frames of a block, of which there are at most `limit`. -/
def skipFrames (layout : FrameLayout) (limit : Nat) : Reader Unit := do
  match limit with
  | 0 => return ()
  | limit + 1 =>
    let name ← readBytes layout.nameWidth
    if name.all isFrameLetter then
      let size ← readDigits layout.sizeWidth layout.base
      let flags ← readDigits layout.flagWidth 256
      if layout.unused.any fun unused => flags &&& unused ≠ 0 then throw .unusedFlags
      skipBytes size
      if layout.headingWidth ≤ (← get).length then skipFrames layout limit

/-- The bytes of a block in which a zero was put behind each byte of ones, without these
zeros. -/
def withoutStuffing : List UInt8 → List UInt8
  | 255 :: 0 :: rest => 255 :: withoutStuffing rest
  | byte :: rest => byte :: withoutStuffing rest
  | [] => []

/-- Looks through what a block holds.  It must not end inside a frame.  One with a second
heading, which the flags announce from version three on, is taken as it is. -/
def checkTags (version flags : Nat) (body : List UInt8) : Except WaveFault Unit :=
  if 2 < version ∧ flags.testBit 6 then .ok ()
  else
    let body := if version < 4 ∧ flags.testBit 7 then withoutStuffing body else body
    match (skipFrames (.ofVersion version) (body.length + 1)).run body with
    | .error .endOfStream => .error .tagsTooShort
    | .error fault => .error fault
    | .ok _ => .ok ()

/-- Leaves out a block of tags, of which the marker has been read. -/
def skipTagBlock : Reader Unit := do
  let version ← readNumber 1
  let revision ← readNumber 1
  let flags ← readNumber 1
  let size ← readDigits 4 128
  if version = 255 ∨ revision = 255 then throw .tagVersion
  if version < 2 ∨ 4 < version then throw .unknownTagVersion
  if version = 2 ∧ flags.testBit 6 then throw .compressedTags
  checkTags version flags (← readBytes size)

end AudioCatalog.Wave
