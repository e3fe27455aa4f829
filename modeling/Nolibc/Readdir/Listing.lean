import Mathlib.Data.List.Nodup
import Nolibc.Readdir

/-!
# Listing a directory

Whether repeated calls of `readdir_r` list a directory depends on the cookies
of its entries: the result of the seek is kept in an `int` and compared with
-1, so an entry whose cookie ends in 32 ones is taken for a failure.
`lists_iff` says that nothing else goes wrong, for any kernel that serves the
directory, and whatever was in `errno` and in the caller's memory before.

`Serves` is what is assumed of the kernel.  It leaves open how many entries a
batch has.
-/

set_option autoImplicit false

namespace Nolibc.Readdir.Listing

open Nolibc.Machine
open Nolibc.Foundation
open Nolibc.Strings.Copy
open Nolibc.Sys
open Nolibc.Readdir

/-! ## Directories -/

/-- An entry; its cookie is the position behind it. -/
structure Entry where
  ino : Nat
  cookie : Nat
  name : CString
  inoFits : ino < 2 ^ 64
  cookieFits : cookie < 2 ^ 63
  nameFits : name.length ≤ NAME_MAX

namespace Entry

/-- The header without its padding, the name and a NUL, aligned to words. -/
def recordLength (entry : Entry) : Nat :=
  (19 + entry.name.length + 1 + 7) / 8 * 8

/-- The record of an entry as the kernel writes it. -/
def record (entry : Entry) : LinuxDirent64 :=
  ⟨entry.ino, entry.cookie, entry.recordLength, entry.name⟩

/-- What a caller is to see of an entry. -/
def listed (entry : Entry) : Observation :=
  ⟨0, .entry entry.ino entry.name.bytes⟩

/-- The cookie is not -1 when it is cut to 32 bits. -/
def Distinguishable (entry : Entry) : Prop :=
  entry.cookie % 2 ^ 32 ≠ 2 ^ 32 - 1

instance (entry : Entry) : Decidable entry.Distinguishable :=
  inferInstanceAs (Decidable (_ ≠ _))

/-- The buffer of `readdir_r` has room for any entry. -/
theorem recordLength_le (entry : Entry) :
    entry.recordLength ≤ sizeofBuf := by
  have nameFits := entry.nameFits
  simp only [recordLength, sizeofBuf, sizeofLinuxDirent64, NAME_MAX]
    at nameFits ⊢
  omega

theorem recordLength_pos (entry : Entry) : 0 < entry.recordLength := by
  unfold recordLength
  omega

end Entry

/-- The entries of a directory, in order, of which no two have one cookie. -/
structure Directory where
  entries : List Entry
  distinct : (entries.map Entry.cookie).Nodup

/-- The size of a batch of records. -/
def batchLength : List Entry → Nat
  | [] => 0
  | entry :: rest => entry.recordLength + batchLength rest

/--
A kernel serves a directory through a descriptor: `Behind` tells how many
entries are before the position in a state of it.
-/
structure Serves {State : Type}
    (calls : DirectoryCalls State) (fd : Int) (directory : Directory)
    (Behind : Nat → State → Prop) : Prop where
  /-- At the end there are no bytes. -/
  ended :
    ∀ {count : Nat} {state : State},
      Behind directory.entries.length state →
        ∃ next, calls.getdents64 fd count state = (0, [], next) ∧
          Behind directory.entries.length next
  /-- A batch is a non-empty prefix of what is left, and fits. -/
  batch :
    ∀ {position count : Nat} {state : State} {entry : Entry}
      {rest : List Entry},
      Behind position state →
        directory.entries.drop position = entry :: rest →
        entry.recordLength ≤ count →
          ∃ more next, more <+: rest ∧
            batchLength (entry :: more) ≤ count ∧
            calls.getdents64 fd count state =
              ((batchLength (entry :: more) : Int),
                (entry :: more).map Entry.record, next) ∧
            Behind (position + (entry :: more).length) next
  /-- A seek to the cookie of an entry goes to behind the entry. -/
  seek :
    ∃ call, calls.lseek = some call ∧
      ∀ {position index : Nat} {state : State} {entry : Entry},
        Behind position state → directory.entries[index]? = some entry →
          ∃ next, call fd entry.cookie SEEK_SET state =
              ((entry.cookie : Int), next) ∧
            Behind (index + 1) next

/-! ## One call -/

theorem complement_neg {fd : Int} (valid : 0 ≤ fd) : ~~~fd < 0 := by
  cases fd with
  | ofNat fd => exact Int.negSucc_lt_zero fd
  | negSucc fd => exact absurd valid (by omega)

theorem complement_complement (fd : Int) : ~~~(~~~fd) = fd := by
  cases fd <;> rfl

/-- A copied name is read back whole. -/
theorem name_of_strlcpy
    {name : CString} (nameFits : name.length ≤ NAME_MAX)
    (ino : Nat) (memory : Nat → Byte) :
    (Dirent.mk ino (Memory.apply memory
      (Memory.burst sizeofDName 0 (name.bytes ++ [0])))).name =
        name.bytes := by
  have fits : 0 + (name.bytes ++ [0]).length ≤ sizeofDName := by
    have room : name.bytes.length ≤ NAME_MAX := nameFits
    rw [List.length_append, List.length_singleton, sizeofDName]
    omega
  have front := Memory.block_take
    (Memory.apply memory (Memory.burst sizeofDName 0 (name.bytes ++ [0]))) 0
    sizeofDName (name.bytes ++ [0]).length (by omega)
  rw [Memory.block_apply_burst memory _ _ _ fits] at front
  rw [Dirent.name, ← List.take_append_drop (name.bytes ++ [0]).length
    (Memory.block _ 0 sizeofDName), front, List.append_assoc,
    List.takeWhile_append_of_pos]
  · simp
  · intro byte member
    have nonzero : byte ≠ 0 := fun zero => name.noNul (zero ▸ member)
    exact decide_eq_true nonzero

section Call

variable {State : Type} {calls : DirectoryCalls State} {fd : Int}
  {directory : Directory} {Behind : Nat → State → Prop}
  (serves : Serves calls fd directory Behind)
  (valid : 0 ≤ fd) (small : fd < 2 ^ 31)

include serves valid small

/-- Behind the last entry, `*result` becomes `NULL`. -/
theorem readdirR_ended
    {caller : Caller State}
    (behind : Behind directory.entries.length caller.process.kernel) :
    ∃ next, Behind directory.entries.length next ∧
      readdirR calls (~~~fd) caller =
        .ok (0,
          { caller with
            process := { caller.process with kernel := next }
            result := .null }) := by
  have atEnd : ∃ next,
      calls.getdents64 fd sizeofBuf caller.process.kernel = (0, [], next) ∧
        Behind directory.entries.length next := serves.ended behind
  rcases atEnd with ⟨next, read, onward⟩
  have descriptor : intOfLong (~~~(~~~fd)) = fd := by
    rw [complement_complement, intOfLong_of_range (by omega) small]
  have nonnegative : ¬ ~~~fd ≥ 0 := Int.not_le.mpr (complement_neg valid)
  have zero : intOfLong 0 = 0 := intOfLong_of_range (by omega) (by omega)
  refine ⟨next, onward, ?_⟩
  simp only [readdirR, if_neg nonnegative, descriptor, sysGetdents64, read,
    zero]
  rfl

/-- An entry is stored, unless its cookie is taken for a failure. -/
theorem readdirR_next
    {caller : Caller State} {position : Nat} {entry : Entry}
    {rest : List Entry} (behind : Behind position caller.process.kernel)
    (here : directory.entries.drop position = entry :: rest) :
    ∃ next, Behind (position + 1) next ∧
      readdirR calls (~~~fd) caller =
        if entry.Distinguishable then
          .ok (0,
            { process := { caller.process with kernel := next }
              entry :=
                { dIno := entry.ino
                  dName := Memory.apply caller.entry.dName
                    (Memory.burst sizeofDName 0 (entry.name.bytes ++ [0])) }
              result := .entry })
        else
          .ok (caller.process.errnum.toInt,
            { caller with
              process := { caller.process with kernel := next } }) := by
  rcases serves.batch behind here entry.recordLength_le with
    ⟨more, middle, _, fits, read, moved⟩
  rcases serves.seek with ⟨call, native, seeks⟩
  have found : directory.entries[position]? = some entry := by
    have first := congrArg (·[0]?) here
    simpa using first
  rcases seeks moved found with ⟨next, succeeds, onward⟩
  refine ⟨next, onward, ?_⟩
  have descriptor : intOfLong (~~~(~~~fd)) = fd := by
    rw [complement_complement, intOfLong_of_range (by omega) small]
  have nonnegative : ¬ ~~~fd ≥ 0 := Int.not_le.mpr (complement_neg valid)
  have bytes : intOfLong (batchLength (entry :: more)) =
      batchLength (entry :: more) := by
    have room : sizeofBuf = 280 := rfl
    exact intOfLong_of_range (by omega) (by omega)
  have positive : 0 < batchLength (entry :: more) := by
    exact Nat.add_pos_left entry.recordLength_pos _
  have notFailed : ¬ (batchLength (entry :: more) : Int) < 0 := by omega
  have notEnded : ¬ (batchLength (entry :: more) : Int) = 0 := by omega
  have sought := lseek_native .x86_64 calls.toSeekCalls native
    ⟨middle, caller.process.errnum⟩ succeeds (Int.natCast_nonneg entry.cookie)
  have copied : strlcpy entry.name sizeofDName =
      .ok (entry.name.length,
        Memory.burst sizeofDName 0 (entry.name.bytes ++ [0])) :=
    strlcpy_fits (Nat.lt_succ_of_le entry.nameFits)
  simp only [readdirR, if_neg nonnegative, descriptor, sysGetdents64, read,
    bytes, if_neg notFailed, if_neg notEnded, List.map_cons, Entry.record,
    sought, intOfLong_eq_neg_one_iff]
  by_cases failed : entry.cookie % 2 ^ 32 = 2 ^ 32 - 1
  · have taken : ¬ entry.Distinguishable := not_not_intro failed
    rw [if_pos failed, if_neg taken]
    rfl
  · have kept : entry.Distinguishable := failed
    rw [if_neg failed, if_pos kept, copied]
    rfl

/-! ## All calls -/

/-- From anywhere in the directory, what is left is listed, and then `NULL`. -/
theorem readAll_of_distinguishable
    (caller : Caller State) {position : Nat} {rest : List Entry}
    (behind : Behind position caller.process.kernel)
    (bounded : position ≤ directory.entries.length)
    (here : directory.entries.drop position = rest)
    (clean : ∀ entry ∈ rest, entry.Distinguishable) :
    readAll calls (~~~fd) (rest.length + 1) caller =
      .ok (rest.map Entry.listed ++ [⟨0, .null⟩]) := by
  induction rest generalizing caller position with
  | nil =>
      have atEnd : position = directory.entries.length :=
        Nat.le_antisymm bounded (List.drop_eq_nil_iff.mp here)
      rw [atEnd] at behind
      rcases readdirR_ended serves valid small behind with ⟨next, _, read⟩
      simp only [List.length_nil, readAll, read]
      rfl
  | cons entry rest induction =>
      rcases readdirR_next serves valid small behind here with
        ⟨next, onward, read⟩
      rw [if_pos (clean entry List.mem_cons_self)] at read
      have inside : position + 1 ≤ directory.entries.length := by
        have total := congrArg List.length here
        rw [List.length_drop, List.length_cons] at total
        omega
      have behindIt : directory.entries.drop (position + 1) = rest := by
        rw [← List.tail_drop, here, List.tail_cons]
      have later := induction
        { process := { caller.process with kernel := next }
          entry :=
            { dIno := entry.ino
              dName := Memory.apply caller.entry.dName
                (Memory.burst sizeofDName 0 (entry.name.bytes ++ [0])) }
          result := .entry }
        onward inside behindIt
        (fun other member => clean other (List.mem_cons_of_mem _ member))
      rw [List.length_cons, readAll, read]
      simp only [bind, Except.bind, later, Caller.found,
        name_of_strlcpy entry.nameFits]
      rfl

omit serves valid small in
/-- The first of several observations, and the calls behind it. -/
theorem readAll_cons
    {dirp : Int} {count : Nat} {caller next : Caller State} {ret : Int}
    (read : readdirR calls dirp caller = .ok (ret, next))
    {first : Observation} {later : List Observation}
    (lists : readAll calls dirp (count + 1) caller = .ok (first :: later)) :
    ret = first.ret ∧ readAll calls dirp count next = .ok later := by
  rw [readAll, read] at lists
  cases behind : readAll calls dirp count next with
  | error fault =>
      simp only [bind, Except.bind, behind] at lists
      exact absurd lists (by simp)
  | ok others =>
      simp only [bind, Except.bind, behind, pure, Except.pure,
        Except.ok.injEq, List.cons.injEq] at lists
      rcases lists with ⟨rfl, rfl⟩
      exact ⟨rfl, rfl⟩

/-- With something in `errno`, a cookie that is taken for a failure shows. -/
theorem distinguishable_of_readAll
    {caller : Caller State} {position : Nat} {rest : List Entry}
    (behind : Behind position caller.process.kernel)
    (here : directory.entries.drop position = rest)
    (stale : caller.process.errnum.toInt ≠ 0)
    (lists : readAll calls (~~~fd) (rest.length + 1) caller =
      .ok (rest.map Entry.listed ++ [⟨0, .null⟩])) :
    ∀ entry ∈ rest, entry.Distinguishable := by
  induction rest generalizing caller position with
  | nil =>
      intro entry member
      exact absurd member List.not_mem_nil
  | cons entry rest induction =>
      rcases readdirR_next serves valid small behind here with
        ⟨next, onward, read⟩
      have behindIt : directory.entries.drop (position + 1) = rest := by
        rw [← List.tail_drop, here, List.tail_cons]
      intro other member
      by_cases kept : entry.Distinguishable
      · rw [if_pos kept] at read
        rcases List.mem_cons.mp member with same | inRest
        · exact same ▸ kept
        · refine induction ?_ behindIt ?_ (readAll_cons read lists).2 other
            inRest
          · exact onward
          · exact stale
      · rw [if_neg kept] at read
        exact absurd (readAll_cons read lists).1 stale

end Call

/--
Every call returns 0, the first ones with the entries of the directory in
order, and the last one with `NULL`.  Neither `errno` nor what the caller
passes in matters.
-/
def Lists {State : Type}
    (calls : DirectoryCalls State) (fd : Int) (directory : Directory)
    (state : State) : Prop :=
  ∀ (errnum : Errno) (entry : Dirent) (result : ResultPointer),
    readAll calls (fdopendir fd (⟨state, errnum⟩ : Process State)).1
        (directory.entries.length + 1) ⟨⟨state, errnum⟩, entry, result⟩ =
      .ok (directory.entries.map Entry.listed ++ [⟨0, .null⟩])

/--
A directory is listed by `readdir_r` exactly when no cookie of its entries
has 32 ones at its end.
-/
theorem lists_iff
    {State : Type} {calls : DirectoryCalls State} {fd : Int}
    (valid : 0 ≤ fd) (small : fd < 2 ^ 31)
    {directory : Directory} {Behind : Nat → State → Prop}
    (serves : Serves calls fd directory Behind)
    {state : State} (start : Behind 0 state) :
    Lists calls fd directory state ↔
      ∀ entry ∈ directory.entries, entry.cookie % 2 ^ 32 ≠ 2 ^ 32 - 1 := by
  have opened (process : Process State) :
      (fdopendir fd process).1 = ~~~fd := by
    rw [fdopendir, if_neg (Int.not_lt.mpr valid)]
  constructor
  · intro lists
    have stale : EBADF.toInt ≠ 0 := by decide
    have listed := lists EBADF ⟨0, fun _ => 0⟩ .elsewhere
    rw [opened] at listed
    exact distinguishable_of_readAll serves valid small start
      List.drop_zero stale listed
  · intro clean errnum entry result
    rw [opened]
    exact readAll_of_distinguishable serves valid small _ start
      (Nat.zero_le _) List.drop_zero clean

/-! ## A kernel -/

/-- The entries of which the records fit. -/
def fitting : Nat → List Entry → List Entry
  | _, [] => []
  | room, entry :: rest =>
      if entry.recordLength ≤ room then
        entry :: fitting (room - entry.recordLength) rest
      else
        []

theorem Directory.findIdx_cookie
    (directory : Directory) {index : Nat} {entry : Entry}
    (found : directory.entries[index]? = some entry) :
    (directory.entries.findIdx? fun other =>
      (other.cookie : Int) = entry.cookie) = some index := by
  rcases List.getElem?_eq_some_iff.mp found with ⟨inside, rfl⟩
  rw [List.findIdx?_eq_some_iff_getElem]
  refine ⟨inside, decide_eq_true rfl, ?_⟩
  intro earlier before same
  have cookies : directory.entries[earlier].cookie =
      directory.entries[index].cookie :=
    Int.ofNat_inj.mp (of_decide_eq_true same)
  have lastMapped : index < (directory.entries.map Entry.cookie).length := by
    simpa using inside
  have firstMapped :
      earlier < (directory.entries.map Entry.cookie).length :=
    Nat.lt_trans before lastMapped
  have mapped : (directory.entries.map Entry.cookie)[earlier] =
      (directory.entries.map Entry.cookie)[index] := by
    simpa using cookies
  have equal : earlier = index :=
    directory.distinct.getElem_inj_iff.mp mapped
  exact Nat.ne_of_lt before equal

/--
A kernel that fills the buffer as far as it goes; its state is the number of
entries before the position.
-/
def filling (directory : Directory) : DirectoryCalls Nat where
  lseek := some fun _ offset _ position =>
    match directory.entries.findIdx? fun entry => entry.cookie = offset with
    | some index => (offset, index + 1)
    | none => (-EINVAL.toNat, position)
  llseek := none
  getdents64 _ count position :=
    match directory.entries.drop position with
    | [] => (0, [], position)
    | entry :: rest =>
        match fitting count (entry :: rest) with
        | [] => (-EINVAL.toNat, [], position)
        | batch =>
            (batchLength batch, batch.map Entry.record,
              position + batch.length)

theorem fitting_spec (room : Nat) (entries : List Entry) :
    fitting room entries <+: entries ∧
      batchLength (fitting room entries) ≤ room := by
  induction entries generalizing room with
  | nil => exact ⟨List.prefix_refl [], Nat.zero_le room⟩
  | cons entry rest induction =>
      rw [fitting]
      split_ifs with fits
      · rcases induction (room - entry.recordLength) with ⟨front, short⟩
        constructor
        · exact List.cons_prefix_cons.mpr ⟨rfl, front⟩
        · rw [batchLength]
          omega
      · exact ⟨List.nil_prefix, Nat.zero_le room⟩

/-- Such a kernel serves any directory. -/
theorem filling_serves (directory : Directory) (fd : Int) :
    Serves (filling directory) fd directory
      (fun position state => state = position) where
  ended := by
    intro count state behind
    refine ⟨state, ?_, behind⟩
    simp only [filling, behind, List.drop_length]
  batch := by
    intro position count state entry rest behind here fits
    rcases fitting_spec (count - entry.recordLength) rest with
      ⟨front, short⟩
    refine ⟨fitting (count - entry.recordLength) rest, _, front, ?_, ?_,
      rfl⟩
    · rw [batchLength]
      omega
    · simp only [filling, behind, here, fitting, if_pos fits]
  seek := by
    refine ⟨_, rfl, ?_⟩
    intro position index state entry behind found
    refine ⟨index + 1, ?_, rfl⟩
    simp only [directory.findIdx_cookie found]

/-- A directory of two files. -/
def twoFiles : Directory where
  entries :=
    [⟨11, 4, .ofAscii "Makefile", by decide, by decide, by decide⟩,
      ⟨12, 2 ^ 62, .ofAscii "nolibc.h", by decide, by decide, by decide⟩]
  distinct := by decide

theorem lists_iff_twoFiles :
    Lists (filling twoFiles) 3 twoFiles 0 ↔
      ∀ entry ∈ twoFiles.entries, entry.cookie % 2 ^ 32 ≠ 2 ^ 32 - 1 :=
  lists_iff (by decide) (by decide) (filling_serves twoFiles 3) rfl

/-- A directory with a single file, whose cookie is the largest there is. -/
def lastCookie : Directory where
  entries :=
    [⟨11, 2 ^ 63 - 1, .ofAscii "Makefile", by decide, by decide, by decide⟩]
  distinct := by decide

/-- The file is lost, and the call that loses it reports success. -/
theorem readdirR_loses_entry :
    readAll (filling lastCookie) (fdopendir 3 (⟨0, 0⟩ : Process Nat)).1 2
        ⟨⟨0, 0⟩, ⟨0, fun _ => 0⟩, .elsewhere⟩ =
      .ok [⟨0, .elsewhere⟩, ⟨0, .null⟩] ∧
    ¬ Lists (filling lastCookie) 3 lastCookie 0 := by
  have lost :
      readAll (filling lastCookie) (fdopendir 3 (⟨0, 0⟩ : Process Nat)).1 2
          ⟨⟨0, 0⟩, ⟨0, fun _ => 0⟩, .elsewhere⟩ =
        .ok [⟨0, .elsewhere⟩, ⟨0, .null⟩] := rfl
  refine ⟨lost, ?_⟩
  intro lists
  have listed := lists 0 ⟨0, fun _ => 0⟩ .elsewhere
  have differs := lost.symm.trans listed
  exact absurd differs (by decide)

end Nolibc.Readdir.Listing
