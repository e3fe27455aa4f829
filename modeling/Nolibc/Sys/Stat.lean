import Nolibc.Foundation.Word
import Nolibc.Sys
import Mathlib.Data.BitVec

/-!
# Device numbers

`fstatat` of `sys/stat.h` makes a word of the two numbers of a device that
`statx` reports, and the macros of `sys/sysmacros.h` take words apart and make
them.  The macros know a layout for small numbers only; `fstatat` puts what is
left of the minor number above the major one.

`device_words` says that the word determines the two numbers, and when the
macros agree with it.
-/

set_option autoImplicit false

namespace Nolibc.Sys.Stat

open Nolibc.Machine
open Nolibc.Foundation
open Nolibc.Sys

/-! ## The macros -/

/-- `makedev`, of twelve bits and eight. -/
def makedev (major minor : BitVec 32) : BitVec 32 :=
  ((major &&& 0xfff#32) <<< 8) ||| (minor &&& 0xff#32)

/-- `major` -/
def major (dev : BitVec 32) : BitVec 32 :=
  (dev >>> 8) &&& 0xfff#32

/-- `minor` -/
def minor (dev : BitVec 32) : BitVec 32 :=
  dev &&& 0xff#32

/-! ## The code -/

/-- The flag that `fstatat` adds. -/
def AT_NO_AUTOMOUNT : BitVec 32 := 0x800

/-- What `fstatat` asks for. -/
def STATX_BASIC_STATS : BitVec 32 := 0x7ff

/-- `struct statx_timestamp` -/
structure StatxTimestamp where
  tv_sec : BitVec 64
  tv_nsec : BitVec 32
  deriving DecidableEq, Repr

/-- The fields of `struct statx` which are read. -/
structure Statx where
  stx_blksize : BitVec 32
  stx_nlink : BitVec 32
  stx_uid : BitVec 32
  stx_gid : BitVec 32
  stx_mode : BitVec 16
  stx_ino : BitVec 64
  stx_size : BitVec 64
  stx_blocks : BitVec 64
  stx_atime : StatxTimestamp
  stx_ctime : StatxTimestamp
  stx_mtime : StatxTimestamp
  stx_rdev_major : BitVec 32
  stx_rdev_minor : BitVec 32
  stx_dev_major : BitVec 32
  stx_dev_minor : BitVec 32
  deriving DecidableEq, Repr

/-- `struct timespec`, of two `long` -/
structure StatTimespec (target : Target) where
  tv_sec : BitVec target.longBits
  tv_nsec : BitVec target.longBits
  deriving DecidableEq, Repr

/-- `struct stat` -/
structure StatBuf (target : Target) where
  st_dev : BitVec 32
  st_ino : BitVec target.longBits
  st_mode : BitVec 32
  st_nlink : BitVec target.longBits
  st_uid : BitVec 32
  st_gid : BitVec 32
  st_rdev : BitVec 32
  st_size : BitVec target.longBits
  st_blksize : BitVec target.longBits
  st_blocks : BitVec target.longBits
  st_atim : StatTimespec target
  st_mtim : StatTimespec target
  st_ctim : StatTimespec target
  deriving DecidableEq, Repr

/-- `__NR_statx`, where the target has it: its result, and what it stores. -/
structure StatCalls (State : Type) where
  statx :
    Option ((fd : Int) → (path : CString) → (flags mask : BitVec 32) →
      State → Int × Option Statx × State)

/-- The word of a device, which is written out once for each device. -/
def devWord (devMajor devMinor : BitVec 32) : BitVec 32 :=
  (devMinor &&& 0xff#32) ||| (devMajor <<< 8) |||
    ((devMinor &&& ~~~0xff#32) <<< 12)

section Code

variable {State : Type} (target : Target) (calls : StatCalls State)

/-- `sys_statx`, with what it stores through `buf`. -/
def sysStatx (fd : Int) (path : CString) (flags mask : BitVec 32)
    (state : State) : Int × Option Statx × State :=
  match calls.statx with
  | some call =>
      let (ret, stored, state) := call fd path flags mask state
      (intOfLong ret, stored, state)
  | none => (-ENOSYS.toNat, none, state)

/-- A time of `struct statx`, as two `long`. -/
def timespecOf (time : StatxTimestamp) : StatTimespec target where
  tv_sec := time.tv_sec.setWidth target.longBits
  tv_nsec := time.tv_nsec.setWidth target.longBits

/-- The assignments to `buf`. -/
def statOf (statx : Statx) : StatBuf target where
  st_dev := devWord statx.stx_dev_major statx.stx_dev_minor
  st_ino := statx.stx_ino.setWidth target.longBits
  st_mode := statx.stx_mode.setWidth 32
  st_nlink := statx.stx_nlink.setWidth target.longBits
  st_uid := statx.stx_uid
  st_gid := statx.stx_gid
  st_rdev := devWord statx.stx_rdev_major statx.stx_rdev_minor
  st_size := statx.stx_size.setWidth target.longBits
  st_blksize := statx.stx_blksize.setWidth target.longBits
  st_blocks := statx.stx_blocks.setWidth target.longBits
  st_atim := timespecOf target statx.stx_atime
  st_mtim := timespecOf target statx.stx_mtime
  st_ctim := timespecOf target statx.stx_ctime

/-- `fstatat`; `statx` is what its variable holds before the call, and the
second result what is in `buf` afterwards. -/
def fstatat (statx : Statx) (fd : Int) (path : CString) (buf : StatBuf target)
    (flag : BitVec 32) (process : Process State) :
    Int × StatBuf target × Process State :=
  let (ret, stored, state) :=
    sysStatx calls fd path (flag ||| AT_NO_AUTOMOUNT) STATX_BASIC_STATS
      process.kernel
  let (ret, process) := sysret ret { process with kernel := state }
  if ret = -1 then
    (ret, buf, process)
  else
    (0, statOf target (stored.getD statx), process)

end Code

/-! ## The word of a device -/

section Words

variable {devMajor devMinor : BitVec 32}

/-- The three parts of the word do not overlap, and none is lost. -/
theorem devWord_toNat
    (majorFits : devMajor.toNat < 4096) (minorFits : devMinor.toNat < 2 ^ 20) :
    (devWord devMajor devMinor).toNat =
      devMinor.toNat % 256 + 2 ^ 8 * devMajor.toNat +
        2 ^ 20 * (devMinor.toNat / 256) := by
  have low : (devMinor &&& 0xff#32).toNat = devMinor.toNat % 256 :=
    Word.toNat_and_low devMinor 8 (by decide)
  have middle : (devMajor <<< 8).toNat = 2 ^ 8 * devMajor.toNat := by
    rw [BitVec.toNat_shiftLeft, Nat.shiftLeft_eq]
    omega
  have left : (devMinor &&& ~~~0xff#32).toNat =
      2 ^ 8 * (devMinor.toNat / 256) := Word.toNat_and_not_low devMinor 8
  have high :
      ((devMinor &&& ~~~0xff#32) <<< 12).toNat =
        2 ^ 20 * (devMinor.toNat / 256) := by
    rw [BitVec.toNat_shiftLeft, left, Nat.shiftLeft_eq]
    omega
  rw [devWord, BitVec.toNat_or, BitVec.toNat_or, low, middle, high,
    Nat.or_comm (devMinor.toNat % 256),
    ← Nat.two_pow_add_eq_or_of_lt (by omega), Nat.or_comm,
    ← Nat.two_pow_add_eq_or_of_lt (by omega)]
  omega

theorem devWord_inj
    (majorFits : devMajor.toNat < 4096) (minorFits : devMinor.toNat < 2 ^ 20)
    {otherMajor otherMinor : BitVec 32}
    (otherMajorFits : otherMajor.toNat < 4096)
    (otherMinorFits : otherMinor.toNat < 2 ^ 20) :
    devWord devMajor devMinor = devWord otherMajor otherMinor ↔
      devMajor = otherMajor ∧ devMinor = otherMinor := by
  constructor
  · intro same
    have equal := congrArg BitVec.toNat same
    rw [devWord_toNat majorFits minorFits,
      devWord_toNat otherMajorFits otherMinorFits] at equal
    constructor
    · exact BitVec.eq_of_toNat_eq (by omega)
    · exact BitVec.eq_of_toNat_eq (by omega)
  · rintro ⟨rfl, rfl⟩
    rfl

theorem major_toNat (dev : BitVec 32) :
    (major dev).toNat = dev.toNat / 256 % 4096 := by
  have masked : (major dev).toNat = (dev >>> 8).toNat % 4096 :=
    Word.toNat_and_low (dev >>> 8) 12 (by decide)
  rw [masked, BitVec.toNat_ushiftRight, Nat.shiftRight_eq_div_pow]

theorem minor_toNat (dev : BitVec 32) :
    (minor dev).toNat = dev.toNat % 256 :=
  Word.toNat_and_low dev 8 (by decide)

theorem major_devWord
    (majorFits : devMajor.toNat < 4096)
    (minorFits : devMinor.toNat < 2 ^ 20) :
    major (devWord devMajor devMinor) = devMajor := by
  apply BitVec.eq_of_toNat_eq
  rw [major_toNat, devWord_toNat majorFits minorFits]
  omega

theorem minor_devWord
    (majorFits : devMajor.toNat < 4096) (small : devMinor.toNat < 256) :
    minor (devWord devMajor devMinor) = devMinor := by
  apply BitVec.eq_of_toNat_eq
  rw [minor_toNat, devWord_toNat majorFits (by omega)]
  omega

/-- For a small minor number there is one layout. -/
theorem makedev_eq_devWord
    (majorFits : devMajor.toNat < 4096) (small : devMinor.toNat < 256) :
    makedev devMajor devMinor = devWord devMajor devMinor := by
  have whole : devMajor &&& 0xfff#32 = devMajor := by
    apply BitVec.eq_of_toNat_eq
    exact (Word.toNat_and_low devMajor 12 (by decide)).trans
      (Nat.mod_eq_of_lt majorFits)
  have nothing : devMinor &&& ~~~0xff#32 = 0#32 := by
    apply BitVec.eq_of_toNat_eq
    have left : (devMinor &&& ~~~0xff#32).toNat =
        2 ^ 8 * (devMinor.toNat / 256) := Word.toNat_and_not_low devMinor 8
    rw [left, Nat.div_eq_of_lt small]
    rfl
  rw [makedev, devWord, whole, nothing, BitVec.zero_shiftLeft,
    BitVec.or_zero, BitVec.or_comm]

end Words

/-! ## What `fstatat` builds -/

/-- One of the two devices of a file: the one that it is on, and the one that
it is. -/
inductive Device where
  | dev
  | rdev
  deriving DecidableEq, Repr

/-- The major number that the kernel reports for a device. -/
def Device.majorIn : Device → Statx → BitVec 32
  | dev, statx => statx.stx_dev_major
  | rdev, statx => statx.stx_rdev_major

/-- The minor number that the kernel reports for a device. -/
def Device.minorIn : Device → Statx → BitVec 32
  | dev, statx => statx.stx_dev_minor
  | rdev, statx => statx.stx_rdev_minor

/-- The word of a device that a program finds in its buffer. -/
def Device.wordIn {target : Target} : Device → StatBuf target → BitVec 32
  | dev, stat => stat.st_dev
  | rdev, stat => stat.st_rdev

/-- The two numbers of a device are in the range of a word. -/
def Device.Fits (device : Device) (statx : Statx) : Prop :=
  (device.majorIn statx).toNat < 4096 ∧ (device.minorIn statx).toNat < 2 ^ 20

/-- A call of `fstatat`: its arguments, what its variable holds before, and the
process that makes it. -/
structure StatCall (target : Target) (State : Type) where
  calls : StatCalls State
  statx : Statx
  fd : Int
  path : CString
  buf : StatBuf target
  flag : BitVec 32
  process : Process State

namespace StatCall

variable {State : Type} {target : Target} (call : StatCall target State)

/-- What `fstatat` makes of the call. -/
def run : Int × StatBuf target × Process State :=
  fstatat target call.calls call.statx call.fd call.path call.buf call.flag
    call.process

/-- The kernel has the system call, and answers it with `statx`. -/
def Reports (statx : Statx) (next : State) : Prop :=
  ∃ kernel, call.calls.statx = some kernel ∧
    kernel call.fd call.path (call.flag ||| AT_NO_AUTOMOUNT) STATX_BASIC_STATS
      call.process.kernel = (0, some statx, next)

variable {call} {statx : Statx} {next : State}

theorem Reports.sysStatx_eq (reported : call.Reports statx next) :
    sysStatx call.calls call.fd call.path (call.flag ||| AT_NO_AUTOMOUNT)
      STATX_BASIC_STATS call.process.kernel = (0, some statx, next) := by
  rcases reported with ⟨kernel, has, answered⟩
  simp only [sysStatx, has, answered]
  rfl

/-- What the kernel reports is passed on. -/
theorem Reports.run_eq (reported : call.Reports statx next) :
    call.run =
      (0, statOf target statx, { call.process with kernel := next }) := by
  simp only [run, fstatat, reported.sysStatx_eq,
    sysret_of_nonneg (Int.le_refl 0), Option.getD_some]
  rfl

end StatCall

/-- Both devices have their words made in the same way. -/
theorem Device.wordIn_statOf
    (device : Device) (target : Target) (statx : Statx) :
    device.wordIn (statOf target statx) =
      devWord (device.majorIn statx) (device.minorIn statx) := by
  cases device with
  | dev => rfl
  | rdev => rfl

/--
A call of `fstatat` to which the kernel reports a file succeeds.  The words
that two such calls build for a major number below 4096 and a minor one below
2^20 are different for different pairs, and `major` finds the major number.
If the minor number is below 256, `minor` finds it and `makedev` makes the same
word.
-/
theorem device_words
    {State Other : Type} {target : Target}
    (call : StatCall target State) (other : StatCall target Other)
    {statx otherStatx : Statx} {next : State} {otherNext : Other}
    (reported : call.Reports statx next)
    (otherReported : other.Reports otherStatx otherNext) :
    ∃ stat otherStat,
      call.run = (0, stat, { call.process with kernel := next }) ∧
      other.run =
        (0, otherStat, { other.process with kernel := otherNext }) ∧
      ∀ device : Device, device.Fits statx →
        (∀ otherDevice : Device, otherDevice.Fits otherStatx →
          (device.wordIn stat = otherDevice.wordIn otherStat ↔
            device.majorIn statx = otherDevice.majorIn otherStatx ∧
              device.minorIn statx = otherDevice.minorIn otherStatx)) ∧
        major (device.wordIn stat) = device.majorIn statx ∧
        ((device.minorIn statx).toNat < 256 →
          minor (device.wordIn stat) = device.minorIn statx ∧
            makedev (device.majorIn statx) (device.minorIn statx) =
              device.wordIn stat) := by
  refine ⟨statOf target statx, statOf target otherStatx, reported.run_eq,
    otherReported.run_eq, ?_⟩
  intro device fits
  rw [device.wordIn_statOf]
  refine ⟨?_, major_devWord fits.1 fits.2, fun small => ?_⟩
  · intro otherDevice otherFits
    rw [otherDevice.wordIn_statOf]
    exact devWord_inj fits.1 fits.2 otherFits.1 otherFits.2
  · exact ⟨minor_devWord fits.1 small, makedev_eq_devWord fits.1 small⟩

/-- A file on the device 8, 1 that is the device with the largest numbers. -/
def sampleStatx : Statx where
  stx_blksize := 4096
  stx_nlink := 1
  stx_uid := 0
  stx_gid := 6
  stx_mode := 0o60660
  stx_ino := 2 ^ 40
  stx_size := 0
  stx_blocks := 0
  stx_atime := ⟨1700000000, 1⟩
  stx_ctime := ⟨1700000000, 2⟩
  stx_mtime := ⟨1700000000, 3⟩
  stx_rdev_major := 0xfff
  stx_rdev_minor := 0xfffff
  stx_dev_major := 8
  stx_dev_minor := 1

/-- The variable and the buffer hold nothing yet, and the file is found. -/
def sampleCall : StatCall .x86_64 Unit where
  calls := ⟨some fun _ _ _ _ _ => (0, some sampleStatx, ())⟩
  statx :=
    ⟨0, 0, 0, 0, 0, 0, 0, 0, ⟨0, 0⟩, ⟨0, 0⟩, ⟨0, 0⟩, 0, 0, 0, 0⟩
  fd := -100
  path := .ofAscii "/dev/last"
  buf := ⟨0, 0, 0, 0, 0, 0, 0, 0, 0, 0, ⟨0, 0⟩, ⟨0, 0⟩, ⟨0, 0⟩⟩
  flag := 0
  process := ⟨(), 0⟩

/-- The device that the file is on, and the device that it is. -/
theorem device_words_sample :
    ∃ stat, sampleCall.run = (0, stat, ⟨(), 0⟩) ∧
      stat.st_dev ≠ stat.st_rdev ∧
      major stat.st_dev = 8 ∧ minor stat.st_dev = 1 ∧
      makedev 8 1 = stat.st_dev ∧ major stat.st_rdev = 0xfff := by
  have reported : sampleCall.Reports sampleStatx () := ⟨_, rfl, rfl⟩
  rcases device_words sampleCall sampleCall reported reported with
    ⟨stat, again, ran, ranAgain, words⟩
  have same : stat = again := by
    rw [ran] at ranAgain
    exact congrArg (fun result => result.2.1) ranAgain
  have onto : Device.dev.Fits sampleStatx := by
    constructor <;> decide
  have itself : Device.rdev.Fits sampleStatx := by
    constructor <;> decide
  rcases words .dev onto with ⟨differ, found, small⟩
  rcases small (by decide) with ⟨foundMinor, made⟩
  refine ⟨stat, ran, ?_, found, foundMinor, made, (words .rdev itself).2.1⟩
  intro equal
  have pairs := (differ .rdev itself).1 (same ▸ equal)
  exact absurd pairs.1 (by decide)

end Nolibc.Sys.Stat
