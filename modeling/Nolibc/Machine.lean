import Mathlib.Algebra.Group.Int.Defs
import Mathlib.Algebra.Group.Nat.Defs
import Mathlib.Data.List.Basic

/-!
# The C machine seen by nolibc

nolibc is a set of headers compiled into the program that includes them, so
the sizes and the signedness the compiler chooses are part of what the code
means.  A `Target` records those choices.  `char` is a byte, unsigned integers
are natural numbers reduced modulo their width where the C code can wrap, and
a string is the list of its bytes before the terminating NUL.

The model is of builds without `NOLIBC_IGNORE_ERRNO`.
-/

set_option autoImplicit false

namespace Nolibc.Machine

/-- One `char` of memory. -/
abbrev Byte := UInt8

/-- What is asked of all bytes of a list is decided byte by byte. -/
instance decidableForallByte (bytes : List Byte) (p : Byte → Prop)
    [DecidablePred p] : Decidable (∀ byte ∈ bytes, p byte) :=
  List.decidableBAll p bytes

/- Character constants are evaluated to the byte they denote. -/
attribute [simp] Char.toUInt8

/-- The two data models nolibc is compiled for. -/
inductive DataModel where
  | ilp32
  | lp64
  deriving DecidableEq, Repr

/-- What the headers leave to the compiler. -/
structure Target where
  dataModel : DataModel
  charSigned : Bool
  deriving DecidableEq, Repr

namespace Target

/-- A 64-bit target with a signed `char`. -/
def x86_64 : Target :=
  ⟨.lp64, true⟩

/-- A 32-bit target with an unsigned `char`. -/
def arm : Target :=
  ⟨.ilp32, false⟩

/-- Bits of `long`, `size_t`, `intptr_t` and of a pointer. -/
def longBits (target : Target) : Nat :=
  match target.dataModel with
  | .ilp32 => 32
  | .lp64 => 64

theorem longBits_cases (target : Target) :
    target.longBits = 32 ∨ target.longBits = 64 := by
  unfold longBits
  cases target.dataModel with
  | ilp32 => exact Or.inl rfl
  | lp64 => exact Or.inr rfl

/-- `SIZE_MAX`, also `ULONG_MAX`. -/
def sizeMax (target : Target) : Nat :=
  2 ^ target.longBits - 1

theorem sizeMax_cases (target : Target) :
    target.sizeMax = 2 ^ 32 - 1 ∨ target.sizeMax = 2 ^ 64 - 1 := by
  unfold sizeMax
  rcases target.longBits_cases with bits | bits <;>
    simp [bits]

theorem sizeMax_lt (target : Target) :
    target.sizeMax < 2 ^ target.longBits := by
  unfold sizeMax
  have positive : 0 < 2 ^ target.longBits := Nat.two_pow_pos _
  omega

/-- The promotion of a `char` to `int`. -/
def charToInt (target : Target) (char : Byte) : Int :=
  if target.charSigned then char.toInt8.toInt else char.toNat

/-- A seven-bit `char` has the same value whatever its signedness. -/
theorem charToInt_of_lt
    (target : Target) {char : Byte} (small : char.toNat < 128) :
    target.charToInt char = char.toNat := by
  unfold charToInt
  split_ifs
  · rw [← Int8.toInt_toBitVec, BitVec.toInt_eq_toNat_cond]
    have sameBits : char.toInt8.toBitVec.toNat = char.toNat := rfl
    rw [sameBits]
    omega
  · rfl

/-- A `char` of either signedness denotes its byte, or a negative number. -/
theorem charToInt_eq (target : Target) (c : Byte) :
    target.charToInt c = c.toNat ∨
      target.charToInt c = (c.toNat : Int) - 256 ∧ 128 ≤ c.toNat := by
  by_cases small : c.toNat < 128
  · exact Or.inl (target.charToInt_of_lt small)
  · unfold charToInt
    split_ifs
    · right
      rw [← Int8.toInt_toBitVec, BitVec.toInt_eq_toNat_cond]
      have sameBits : c.toInt8.toBitVec.toNat = c.toNat := rfl
      rw [sameBits]
      omega
    · exact Or.inl rfl

end Target

/-! ## Machine integers -/

/-- The `int` with the same 32 bits as an `unsigned int`. -/
def intOfUnsigned (value : Nat) : Int :=
  (BitVec.ofNat 32 value).toInt

theorem intOfUnsigned_of_lt
    {value : Nat} (small : value < 2 ^ 31) :
    intOfUnsigned value = value := by
  unfold intOfUnsigned
  rw [BitVec.toInt_eq_toNat_bmod, BitVec.toNat_ofNat, Int.bmod_def]
  omega

theorem intOfUnsigned_neg_iff (value : Nat) :
    intOfUnsigned value < 0 ↔ 2 ^ 31 ≤ value % 2 ^ 32 := by
  unfold intOfUnsigned
  rw [BitVec.toInt_eq_toNat_bmod, BitVec.toNat_ofNat, Int.bmod_def]
  omega

theorem intOfUnsigned_eq_iff (left right : Nat) :
    intOfUnsigned left = intOfUnsigned right ↔
      left % 2 ^ 32 = right % 2 ^ 32 := by
  unfold intOfUnsigned
  rw [BitVec.toInt_eq_toNat_bmod, BitVec.toInt_eq_toNat_bmod,
    BitVec.toNat_ofNat, BitVec.toNat_ofNat, Int.bmod_def, Int.bmod_def]
  omega

/-- The conversion of a wider signed integer to `int`. -/
def intOfLong (value : Int) : Int :=
  (BitVec.ofInt 32 value).toInt

theorem intOfLong_of_range
    {value : Int} (low : -2 ^ 31 ≤ value) (high : value < 2 ^ 31) :
    intOfLong value = value := by
  unfold intOfLong
  rw [BitVec.toInt_ofInt, Int.bmod_def]
  omega

/-- Only the low 32 bits decide whether the conversion gives -1. -/
theorem intOfLong_eq_neg_one_iff (value : Nat) :
    intOfLong value = -1 ↔ value % 2 ^ 32 = 2 ^ 32 - 1 := by
  unfold intOfLong
  rw [BitVec.toInt_ofInt, Int.bmod_def]
  omega

/-- A value of `errno`. -/
abbrev Errno := BitVec 32

/-- The error codes that the code returns or tests. -/
def ESRCH : Errno := 3
def EINTR : Errno := 4
def EBADF : Errno := 9
def ENOMEM : Errno := 12
def EINVAL : Errno := 22
def ERANGE : Errno := 34
def ENOSYS : Errno := 38
def EOVERFLOW : Errno := 75

/-! ## Faults -/

/-- What takes a modelled function out of the behaviour C defines. -/
inductive Fault where
  /-- A read past the terminating NUL of a string or past the end of `argv`. -/
  | outOfBounds
  /-- A `va_arg` that finds no argument or one of another type. -/
  | badArgument
  /-- A loop that did not end within the turns the model gives it. -/
  | diverged
  deriving DecidableEq, Repr

/-! ## Strings -/

/-- The byte a pointer reads when `rest` is left of the string that it points
into. -/
def deref : List Byte → Byte
  | [] => 0
  | byte :: _ => byte

@[simp]
theorem deref_nil : deref [] = 0 :=
  rfl

@[simp]
theorem deref_cons (byte : Byte) (rest : List Byte) :
    deref (byte :: rest) = byte :=
  rfl

theorem deref_append {front : List Byte} (nonempty : front ≠ [])
    (rest : List Byte) : deref (front ++ rest) = deref front := by
  cases front with
  | nil => exact absurd rfl nonempty
  | cons byte front => rfl

/-- A C string: the bytes before its terminating NUL. -/
structure CString where
  bytes : List Byte
  noNul : (0 : Byte) ∉ bytes
  deriving DecidableEq

namespace CString

@[ext]
theorem ext {left right : CString}
    (equal : left.bytes = right.bytes) : left = right := by
  cases left
  cases right
  cases equal
  rfl

/-- `strlen`. -/
def length (string : CString) : Nat :=
  string.bytes.length

/-- `string[index]`, the NUL included; anything after it is out of bounds. -/
def read (string : CString) (index : Nat) : Except Fault Byte :=
  if inside : index < string.bytes.length then
    .ok string.bytes[index]
  else if index = string.bytes.length then
    .ok 0
  else
    .error .outOfBounds

/-- Reading at a split of the string gives the first byte of the second part. -/
theorem read_append
    {string : CString} {front rest : List Byte}
    (split : string.bytes = front ++ rest) :
    string.read front.length = .ok (deref rest) := by
  cases rest with
  | nil => simp [read, split]
  | cons byte rest => simp [read, split]

theorem ne_zero_of_split
    {string : CString} {front rest : List Byte} {byte : Byte}
    (split : string.bytes = front ++ byte :: rest) :
    byte ≠ 0 := by
  rintro rfl
  exact string.noNul (by simp [split])

/-- A byte other than the NUL is read inside the string. -/
theorem split_of_read
    {string : CString} {index : Nat} {byte : Byte}
    (reads : string.read index = .ok byte) (nonzero : byte ≠ 0) :
    ∃ front rest, string.bytes = front ++ byte :: rest ∧
      front.length = index := by
  rw [read] at reads
  split_ifs at reads with inside atEnd
  · rw [Except.ok.injEq] at reads
    refine ⟨string.bytes.take index, string.bytes.drop (index + 1), ?_,
      List.length_take_of_le (Nat.le_of_lt inside)⟩
    rw [← reads, ← List.drop_eq_getElem_cons inside,
      List.take_append_drop]
  · rw [Except.ok.injEq] at reads
    exact absurd reads.symm nonzero

/-- The first bytes of a string. -/
def take (string : CString) (count : Nat) : CString where
  bytes := string.bytes.take count
  noNul := fun member => string.noNul (List.mem_of_mem_take member)

/-- A string followed by another. -/
def append (first second : CString) : CString where
  bytes := first.bytes ++ second.bytes
  noNul := fun member =>
    (List.mem_append.mp member).elim first.noNul second.noNul

@[simp]
theorem take_bytes (string : CString) (count : Nat) :
    (string.take count).bytes = string.bytes.take count :=
  rfl

@[simp]
theorem take_length (string : CString) (count : Nat) :
    (string.take count).length = min count string.length :=
  List.length_take

@[simp]
theorem append_bytes (first second : CString) :
    (first.append second).bytes = first.bytes ++ second.bytes :=
  rfl

@[simp]
theorem append_length (first second : CString) :
    (first.append second).length = first.length + second.length :=
  List.length_append

/-- The string whose bytes are the characters of an ASCII literal. -/
def ofAscii (text : String)
    (noNul : (0 : Byte) ∉ text.toList.map Char.toUInt8 := by decide) :
    CString :=
  ⟨text.toList.map Char.toUInt8, noNul⟩

end CString

/-! ## Pointers into strings -/

/-- A `const char *`: the string it points into and how far. -/
structure Pointer where
  string : CString
  offset : Nat
  deriving DecidableEq

/-- The pointer to the first byte of a string. -/
def CString.start (string : CString) : Pointer :=
  ⟨string, 0⟩

namespace Pointer

/-- `*pointer`. -/
def load (pointer : Pointer) : Except Fault Byte :=
  pointer.string.read pointer.offset

/-- `pointer + count`. -/
def add (pointer : Pointer) (count : Nat) : Pointer :=
  { pointer with offset := pointer.offset + count }

/-- A pointer into its string, and the bytes from it up to the NUL. -/
def Points (pointer : Pointer) (text : List Byte) : Prop :=
  ∃ front, pointer.string.bytes = front ++ text ∧
    pointer.offset = front.length

theorem points_start (string : CString) :
    string.start.Points string.bytes :=
  ⟨[], rfl, rfl⟩

namespace Points

variable {pointer : Pointer} {byte : Byte} {more text : List Byte}

theorem load (points : pointer.Points text) :
    pointer.load = .ok (deref text) := by
  rcases points with ⟨front, split, offset⟩
  rw [Pointer.load, offset, CString.read_append split]

theorem add (points : pointer.Points (more ++ text)) :
    (pointer.add more.length).Points text := by
  rcases points with ⟨front, split, offset⟩
  exact ⟨front ++ more, by simp [Pointer.add, split],
    by simp [Pointer.add, offset]⟩

theorem drop
    (points : pointer.Points text) {count : Nat}
    (inside : count ≤ text.length) :
    (pointer.add count).Points (text.drop count) := by
  have split : pointer.Points (text.take count ++ text.drop count) := by
    rwa [List.take_append_drop]
  have taken : (text.take count).length = count :=
    List.length_take_of_le inside
  have moved := split.add
  rwa [taken] at moved

theorem step (points : pointer.Points (byte :: text)) :
    (pointer.add 1).Points text := by
  have ahead : pointer.Points ([byte] ++ text) := points
  exact ahead.add

theorem noNul (points : pointer.Points text) : (0 : Byte) ∉ text := by
  rcases points with ⟨front, split, _⟩
  intro member
  exact pointer.string.noNul (by simp [split, member])

theorem ne_zero (points : pointer.Points (byte :: text)) :
    byte ≠ 0 := by
  rcases points with ⟨front, split, _⟩
  exact CString.ne_zero_of_split split

/-- What is left of a string is no longer than the string. -/
theorem length_le (points : pointer.Points text) :
    text.length ≤ pointer.string.length := by
  rcases points with ⟨front, split, _⟩
  simp [CString.length, split]

end Points

end Pointer

/-- What a pointer reads at an index. -/
abbrev Reader := Nat → Except Fault Byte

/-- Reading through a pointer with an index. -/
def Pointer.reader (pointer : Pointer) : Reader :=
  fun index => (pointer.add index).load

/-- The bytes that are read from an offset on. -/
def Reader.Reads (reader : Reader) : Nat → List Byte → Prop
  | _, [] => True
  | offset, byte :: bytes =>
      reader offset = .ok byte ∧ Reads reader (offset + 1) bytes

theorem Reader.Reads.front
    {reader : Reader} {offset : Nat} {bytes rest : List Byte}
    (reads : reader.Reads offset (bytes ++ rest)) :
    reader.Reads offset bytes := by
  induction bytes generalizing offset with
  | nil => trivial
  | cons byte bytes induction => exact ⟨reads.1, induction reads.2⟩

/-- A pointer into a string reads what is left of it, and the NUL. -/
theorem Pointer.Points.reads
    {pointer : Pointer} {text : List Byte} (points : pointer.Points text) :
    pointer.reader.Reads 0 (text ++ [0]) := by
  have behind (front rest : List Byte) (split : text = front ++ rest) :
      pointer.reader.Reads front.length (rest ++ [0]) := by
    induction rest generalizing front with
    | nil =>
        rw [List.append_nil] at split
        subst split
        have atEnd : (pointer.add text.length).Points [] :=
          Points.add (by rwa [List.append_nil])
        exact ⟨atEnd.load, trivial⟩
    | cons byte rest induction =>
        have here : (pointer.add front.length).Points (byte :: rest) :=
          Points.add (split ▸ points)
        have onward := induction (front ++ [byte]) (by simp [split])
        rw [List.length_append, List.length_singleton] at onward
        exact ⟨here.load, onward⟩
  exact behind [] text rfl

theorem Pointer.Points.reads_take
    {pointer : Pointer} {text : List Byte} (points : pointer.Points text)
    (count : Nat) : pointer.reader.Reads 0 (text.take count) := by
  have all := points.reads.front
  rw [← List.take_append_drop count text] at all
  exact all.front

/-- The bytes of an ASCII literal. -/
def ascii (text : String) : List Byte :=
  text.toList.map Char.toUInt8

end Nolibc.Machine
