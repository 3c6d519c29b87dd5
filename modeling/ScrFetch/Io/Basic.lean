import Mathlib.Data.List.Basic
import Mathlib.Algebra.Group.Int

/-!
# Paths, bytes and CRC-32

The fetch builds every path with `scr_build_path(dir, name)` and takes base names with
`scr_split_path`; neither is in `src/`. A path here is its list of components, so building
appends one component and the base name is the last one: `basename (buildPath d n) = n`
whatever the strings are. File contents are byte lists; `slice data off len` is the byte
range `[off, off + len)` of `data`, cut short at its end.

`crc32` is zlib's: the reflected register update with polynomial `0xEDB88320`, inverted on the
way in and out, so that `crc32 0 []` is the `crc32(0L, Z_NULL, 0)` of line 191 and feeding a
buffer in pieces gives the CRC of the whole (`crc32_append`), which is what the rolling
`crc = crc32(crc, buf, nread)` of line 263 relies on.
-/

namespace ScrFetch

/-- A path, as its components. -/
abbrev Path := List String

/-- A file's contents. -/
abbrev Bytes := List UInt8

/-- The last component of a path (`scr_split_path`'s `name`). -/
def basename (p : Path) : String := p.getLastD ""

/-- `scr_build_path(dir, name)`. -/
def buildPath (dir : Path) (name : String) : Path := dir ++ [name]

@[simp] theorem basename_buildPath (dir : Path) (name : String) :
    basename (buildPath dir name) = name := by
  simp [basename, buildPath]

/-- Bytes `[off, off + len)` of `data`, cut short at its end. -/
def slice (data : Bytes) (off len : Nat) : Bytes := (data.drop off).take len

@[simp] theorem length_slice (data : Bytes) (off len : Nat) :
    (slice data off len).length = min len (data.length - off) := by
  simp [slice]

@[simp] theorem slice_zero (data : Bytes) (off : Nat) : slice data off 0 = [] := rfl

/-- Reading `m + n` bytes is reading `m`, then `n` more from where those end. -/
theorem slice_add (data : Bytes) (off m n : Nat) :
    slice data off (m + n) = slice data off m ++ slice data (off + m) n := by
  simp only [slice, List.take_add, List.drop_drop]

/-- One byte through the reflected CRC-32 register. -/
def crcByte (c : UInt32) (b : UInt8) : UInt32 :=
  (List.range 8).foldl (fun c _ => if c &&& 1 == 1 then (c >>> 1) ^^^ 0xEDB88320 else c >>> 1)
    (c ^^^ b.toUInt32)

/-- zlib's `crc32(crc, buf, len)` over the bytes `buf`. -/
def crc32 (crc : UInt32) (buf : Bytes) : UInt32 := ~~~(buf.foldl crcByte (~~~crc))

theorem UInt32.complement_complement (x : UInt32) : ~~~(~~~x) = x := by
  cases x
  simp only [Complement.complement, UInt32.complement]
  congr 1
  exact BitVec.not_not

/-- The CRC of a buffer fed in two pieces is the CRC of the whole. -/
theorem crc32_append (c : UInt32) (a b : Bytes) : crc32 (crc32 c a) b = crc32 c (a ++ b) := by
  simp [crc32, UInt32.complement_complement, List.foldl_append]

@[simp] theorem crc32_nil (c : UInt32) : crc32 c [] = c := by
  simp [crc32, UInt32.complement_complement]

set_option maxRecDepth 8000 in
example : crc32 0 [0x31, 0x32, 0x33, 0x34, 0x35, 0x36, 0x37, 0x38, 0x39] = 0xCBF43926 := by decide

end ScrFetch
