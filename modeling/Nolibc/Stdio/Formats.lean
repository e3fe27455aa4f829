import Nolibc.Stdio.Pieces

/-!
# Well-formed formats and their expansion

A format is built from items: literal bytes, `%%`, and directives with an
optional run of modifiers the engine does not know.  A directive either has a
field width and no length modifier, or a length modifier and no width.  An
item carries its argument, so that a list of items stands for a format
together with a matching argument list.

`reference` is what such a call should print, written without looking at the
engine.  `nolibcPrintf_renders` says that the engine prints it.
-/

set_option autoImplicit false

namespace Nolibc.Stdio.Formats

open Nolibc.Machine
open Nolibc.Stdlib.Itoa
open Nolibc.Stdio.Printf
open Nolibc.Stdio.Directives
open Nolibc.Stdio.Pieces

/-! ## Items -/

/-- A byte the engine skips in an escape sequence without looking at it. -/
def isUnknownModifier (c : Byte) : Bool :=
  c ≠ 0 && !isDigit c && !isNumeric c &&
    c ≠ '%'.toUInt8 && c ≠ 's'.toUInt8 && c ≠ 'm'.toUInt8 &&
    c ≠ 'l'.toUInt8 && c ≠ 'j'.toUInt8

/-- A run of unknown modifiers. -/
structure Modifiers where
  bytes : List Byte
  unknown : ∀ c ∈ bytes, isUnknownModifier c = true

/-- The number a list of decimal digits denotes. -/
def decimalValue (digits : List Byte) : Nat :=
  digits.foldl
    (fun value digit => value * 10 + (digit.toNat - '0'.toNat)) 0

/-- A field width as it is written; no digit at all is no width. -/
structure Width where
  digits : List Byte
  allDigits : ∀ c ∈ digits, isDigit c = true
  bounded : decimalValue digits < 2 ^ 31

variable (target : Target)

/-- The conversions without a length modifier, with their arguments. -/
inductive PlainConversion where
  | char (value : BitVec 32) (nonzero : UInt8.ofNat value.toNat ≠ 0)
  | signed (value : BitVec 32)
  | unsigned (value : BitVec 32)
  | hex (value : BitVec 32)
  | pointer (value : BitVec target.longBits)
  | string (value : Option CString)

/-- A length modifier with the argument it makes the engine read. -/
inductive LongArgument where
  | l (value : BitVec target.longBits)
  | ll (value : BitVec 64)
  | j (value : BitVec 64)

/-- The conversions that take a length modifier. -/
inductive LongConversion where
  | signed
  | unsigned
  | hex
  deriving DecidableEq, Repr

/-- One item of a format, with its argument. -/
inductive Item where
  | literal (byte : Byte) (plain : byte ≠ 0 ∧ byte ≠ '%'.toUInt8)
  | percent
  | plain (modifiers : Modifiers) (width : Width)
      (conversion : PlainConversion target)
  | long (modifiers : Modifiers) (argument : LongArgument target)
      (conversion : LongConversion)

variable {target}

/-! ## What the format looks like -/

/-- The letter that ends the directive. -/
def PlainConversion.letter : PlainConversion target → Byte
  | .char _ _ => 'c'.toUInt8
  | .signed _ => 'd'.toUInt8
  | .unsigned _ => 'u'.toUInt8
  | .hex _ => 'x'.toUInt8
  | .pointer _ => 'p'.toUInt8
  | .string _ => 's'.toUInt8

/-- The letter that ends the directive. -/
def LongConversion.letter : LongConversion → Byte
  | .signed => 'd'.toUInt8
  | .unsigned => 'u'.toUInt8
  | .hex => 'x'.toUInt8

/-- The length modifier of an argument. -/
def LongArgument.modifier : LongArgument target → List Byte
  | .l _ => ['l'.toUInt8]
  | .ll _ => ['l'.toUInt8, 'l'.toUInt8]
  | .j _ => ['j'.toUInt8]

/-- The bytes of an item in the format. -/
def Item.source : Item target → List Byte
  | .literal byte _ => [byte]
  | .percent => ['%'.toUInt8, '%'.toUInt8]
  | .plain modifiers width conversion =>
      '%'.toUInt8 ::
        (modifiers.bytes ++ (width.digits ++ [conversion.letter]))
  | .long modifiers argument conversion =>
      '%'.toUInt8 ::
        (modifiers.bytes ++ (argument.modifier ++ [conversion.letter]))

/-- The bytes of a format. -/
def source (items : List (Item target)) : List Byte :=
  items.flatMap Item.source

/-- The argument of a conversion, as the engine fetches it. -/
def PlainConversion.arg : PlainConversion target → Arg target
  | .char value _ => .int value
  | .signed value => .int value
  | .unsigned value => .int value
  | .hex value => .int value
  | .pointer value => .pointer value
  | .string value => .string value

/-- A long argument, as the engine fetches it. -/
def LongArgument.arg : LongArgument target → Arg target
  | .l value => .long value
  | .ll value => .longLong value
  | .j value => .longLong value

/-- The arguments that an item takes. -/
def Item.args : Item target → List (Arg target)
  | .literal _ _ => []
  | .percent => []
  | .plain _ _ conversion => [conversion.arg]
  | .long _ argument _ => [argument.arg]

/-- The arguments that match a format. -/
def arguments (items : List (Item target)) : List (Arg target) :=
  items.flatMap Item.args

/-! ## What the format means -/

/-- The text of a conversion, without its padding. -/
def PlainConversion.reference : PlainConversion target → List Byte
  | .char value _ => [UInt8.ofNat value.toNat]
  | .signed value => signedDecimal value.toInt
  | .unsigned value => decimal value.toNat
  | .hex value => hexadecimal value.toNat
  | .pointer value => ascii "0x" ++ hexadecimal value.toNat
  | .string (some text) => text.bytes
  | .string none => ascii "(null)"

/-- The text of a value of some width. -/
def LongConversion.reference {bits : Nat} (value : BitVec bits) :
    LongConversion → List Byte
  | .signed => signedDecimal value.toInt
  | .unsigned => decimal value.toNat
  | .hex => hexadecimal value.toNat

/-- The text of a long argument. -/
def LongArgument.reference (conversion : LongConversion) :
    LongArgument target → List Byte
  | .l value => conversion.reference value
  | .ll value => conversion.reference value
  | .j value => conversion.reference value

/-- The text of an item: a field is padded with spaces on its left. -/
def Item.reference : Item target → List Byte
  | .literal byte _ => [byte]
  | .percent => ['%'.toUInt8]
  | .plain _ width conversion =>
      conversion.reference.leftpad (decimalValue width.digits) ' '.toUInt8
  | .long _ argument conversion => argument.reference conversion

/-- The concatenation of the renderings. -/
def reference (items : List (Item target)) : List Byte :=
  items.flatMap Item.reference

/-! ## The format has no NUL -/

theorem Item.source_noNul (item : Item target) :
    (0 : Byte) ∉ item.source := by
  have inModifiers (modifiers : Modifiers) :
      (0 : Byte) ∉ modifiers.bytes := fun member =>
    absurd (modifiers.unknown 0 member) (by decide)
  have inDigits (width : Width) : (0 : Byte) ∉ width.digits :=
    fun member => isDigit_ne_zero (width.allDigits 0 member) rfl
  cases item with
  | literal byte plain => simpa [Item.source] using plain.1.symm
  | percent => simp [Item.source]
  | plain modifiers width conversion =>
      cases conversion <;>
        simp [Item.source, inModifiers, inDigits, PlainConversion.letter]
  | long modifiers argument conversion =>
      cases argument <;> cases conversion <;>
        simp [Item.source, inModifiers, LongArgument.modifier,
          LongConversion.letter]

/-- The format as a C string. -/
def formatString (items : List (Item target)) : CString where
  bytes := source items
  noNul := by
    intro member
    obtain ⟨item, _, inItem⟩ := List.mem_flatMap.mp member
    exact item.source_noNul inItem

/-! ## Reading the items of a format -/

theorem readFrom_modifiers
    (lpref : Byte) (modifiers : Modifiers) (rest : List Byte) :
    readFrom (.escape lpref []) (modifiers.bytes ++ rest) =
      readFrom (.escape lpref []) rest := by
  obtain ⟨bytes, unknown⟩ := modifiers
  induction bytes with
  | nil => rfl
  | cons c bytes induction =>
      have head := unknown c (by simp)
      simp only [isUnknownModifier, Bool.and_eq_true, Bool.not_eq_true',
        decide_eq_true_eq, ne_eq] at head
      obtain ⟨⟨⟨⟨⟨⟨⟨_, digit⟩, numeric⟩, percent⟩, s⟩, m⟩, l⟩, j⟩ :=
        head
      have tail := induction
        (fun other member => unknown other (by simp [member]))
      rw [List.cons_append, readFrom, if_neg (by simp [digit]),
        if_neg (by simp [numeric]), if_neg s, if_neg m, if_neg percent,
        nextLpref, if_neg l, if_neg j]
      exact tail

theorem decimalValue_append (digits : List Byte) (digit : Byte) :
    decimalValue (digits ++ [digit]) =
      decimalValue digits * 10 + (digit.toNat - '0'.toNat) := by
  simp [decimalValue]

/-- A width below `2 ^ 31` is read without wrapping. -/
theorem widthOf_eq
    {digits : List Byte} (bounded : decimalValue digits < 2 ^ 31) :
    widthOf digits = decimalValue digits := by
  induction digits using List.reverseRecOn with
  | nil => rfl
  | append_singleton digits digit induction =>
      rw [decimalValue_append] at bounded ⊢
      rw [widthOf_append, induction (by omega)]
      omega

/-- The bytes in front of the first NUL are kept. -/
theorem textOf_append
    {front : List Byte} (noNul : (0 : Byte) ∉ front) (rest : List Byte) :
    textOf (front ++ rest) = front ++ textOf rest := by
  unfold textOf
  rw [List.takeWhile_append_of_pos]
  intro byte member
  have nonzero : byte ≠ 0 := fun zero => noNul (zero ▸ member)
  simpa using nonzero

theorem textOf_append_nul
    {text : List Byte} (noNul : (0 : Byte) ∉ text) :
    textOf (text ++ [0]) = text := by
  rw [textOf_append noNul]
  exact List.append_nil text

/-! ## The text of a conversion -/

theorem tmpbuf_signed
    (lpref : Byte) (v : BitVec 64) :
    textOf (tmpbuf target lpref 'd'.toUInt8 v) =
      signedDecimal (signExtend target lpref v).toInt := by
  have opened : tmpbuf target lpref 'd'.toUInt8 v =
      (i64toaR (signExtend target lpref v)).buffer := rfl
  rw [opened, i64toaR_eq, textOf_append_nul (signedDecimal_noNul _)]

theorem tmpbuf_unsigned (lpref : Byte) (v : BitVec 64) :
    textOf (tmpbuf target lpref 'u'.toUInt8 v) = decimal v.toNat := by
  have opened : tmpbuf target lpref 'u'.toUInt8 v =
      (u64toaR v.toNat).buffer := rfl
  rw [opened, u64toaR_eq v.isLt, textOf_append_nul (decimal_noNul _)]

theorem tmpbuf_hex (lpref : Byte) (v : BitVec 64) :
    textOf (tmpbuf target lpref 'x'.toUInt8 v) =
      hexadecimal v.toNat := by
  have opened : tmpbuf target lpref 'x'.toUInt8 v =
      (u64tohR target v.toNat).buffer := rfl
  rw [opened, u64tohR_eq target v.isLt,
    textOf_append_nul (hexadecimal_noNul _)]

theorem tmpbuf_pointer (lpref : Byte) (v : BitVec 64) :
    textOf (tmpbuf target lpref 'p'.toUInt8 v) =
      ascii "0x" ++ hexadecimal v.toNat := by
  have opened : tmpbuf target lpref 'p'.toUInt8 v =
      ascii "0x" ++ (u64tohR target v.toNat).buffer := rfl
  have noNul : (0 : Byte) ∉ ascii "0x" ++ hexadecimal v.toNat := by
    intro member
    rcases List.mem_append.mp member with inPrefix | inDigits
    · exact absurd inPrefix (by decide)
    · exact hexadecimal_noNul _ inDigits
  rw [opened, u64tohR_eq target v.isLt, ← List.append_assoc,
    textOf_append_nul noNul]

/-- Widening an argument and sign-extending it back keeps its value. -/
theorem signExtend_int (lpref : Byte) (zero : lpref = 0)
    (value : BitVec 32) :
    (signExtend target lpref (value.setWidth 64)).toInt = value.toInt := by
  rw [signExtend, if_pos zero,
    BitVec.setWidth_setWidth_of_le _ (by decide), BitVec.setWidth_eq,
    BitVec.toInt_signExtend_of_le (by decide)]

theorem longBits_le (target : Target) : target.longBits ≤ 64 := by
  rcases target.longBits_cases with bits | bits <;> omega

theorem signExtend_long (value : BitVec target.longBits) :
    (signExtend target 1 (value.setWidth 64)).toInt = value.toInt := by
  rw [signExtend, if_neg (by decide), if_pos rfl,
    BitVec.setWidth_setWidth_of_le _ (longBits_le target),
    BitVec.setWidth_eq, BitVec.toInt_signExtend_of_le (longBits_le target)]

theorem toNat_setWidth {bits : Nat} (bounded : bits ≤ 64)
    (value : BitVec bits) : (value.setWidth 64).toNat = value.toNat :=
  BitVec.toNat_setWidth_of_le bounded

/-! ## The pieces of a conversion -/

/-- The directive a plain conversion is read as. -/
def PlainConversion.directive (width : Nat) :
    PlainConversion target → Directive
  | .string _ => .string width
  | conversion => .numeric width 0 conversion.letter

/-- The length prefix after a length modifier. -/
def LongArgument.lpref : LongArgument target → Byte
  | .l _ => 1
  | .ll _ => 2
  | .j _ => 2

theorem pieceOf_numeric
    {errnum : Errno} {width : Nat} {lpref conv : Byte}
    {args rest : List (Arg target)} {v : BitVec 64} {text : List Byte}
    (fetched : vaArg (numericKind target lpref conv) args = .ok (v, rest))
    (converted : textOf (tmpbuf target lpref conv v) = text) :
    pieceOf errnum args (.numeric width lpref conv) =
      .ok (⟨width, text⟩, rest) := by
  rw [pieceOf, fetched]
  exact congrArg (fun text => Except.ok (Piece.mk width text, rest)) converted

theorem PlainConversion.pieceOf_eq
    (conversion : PlainConversion target) (errnum : Errno) (width : Nat)
    (rest : List (Arg target)) :
    pieceOf errnum (conversion.arg :: rest) (conversion.directive width) =
      .ok (⟨width, conversion.reference⟩, rest) := by
  cases conversion with
  | char value nonzero =>
      apply pieceOf_numeric (v := value.setWidth 64) rfl
      have opened : tmpbuf target 0 'c'.toUInt8 (value.setWidth 64) =
          [UInt8.ofNat (value.setWidth 64).toNat] ++ [0] := rfl
      rw [letter, opened, toNat_setWidth (by decide),
        textOf_append_nul (by simpa using nonzero.symm)]
      rfl
  | signed value =>
      apply pieceOf_numeric (v := value.setWidth 64) rfl
      rw [letter, tmpbuf_signed, signExtend_int 0 rfl]
      rfl
  | unsigned value =>
      apply pieceOf_numeric (v := value.setWidth 64) rfl
      rw [letter, tmpbuf_unsigned, toNat_setWidth (by decide)]
      rfl
  | hex value =>
      apply pieceOf_numeric (v := value.setWidth 64) rfl
      rw [letter, tmpbuf_hex, toNat_setWidth (by decide)]
      rfl
  | pointer value =>
      apply pieceOf_numeric (v := value.setWidth 64) rfl
      rw [letter, tmpbuf_pointer, toNat_setWidth (longBits_le target)]
      rfl
  | string value =>
      cases value <;> rfl

/-- `l` makes a conversion read a `long`. -/
theorem numericKind_long (conversion : LongConversion) :
    numericKind target 1 conversion.letter = .long := by
  have one : ¬ target.charToInt 1 > 1 := by
    rw [target.charToInt_of_lt (by decide)]
    decide
  cases conversion <;>
    simp [numericKind, LongConversion.letter, one]

/-- `ll` and `j` make a conversion read a `long long`. -/
theorem numericKind_longLong (conversion : LongConversion) :
    numericKind target 2 conversion.letter = .longLong := by
  have two : target.charToInt 2 > 1 := by
    rw [target.charToInt_of_lt (by decide)]
    decide
  cases conversion <;>
    simp [numericKind, LongConversion.letter, two]

theorem text_long
    (conversion : LongConversion) (value : BitVec target.longBits) :
    textOf (tmpbuf target 1 conversion.letter (value.setWidth 64)) =
      conversion.reference value := by
  cases conversion with
  | signed =>
      rw [LongConversion.letter, tmpbuf_signed, signExtend_long]
      rfl
  | unsigned =>
      rw [LongConversion.letter, tmpbuf_unsigned,
        toNat_setWidth (longBits_le target)]
      rfl
  | hex =>
      rw [LongConversion.letter, tmpbuf_hex,
        toNat_setWidth (longBits_le target)]
      rfl

theorem text_longLong
    (conversion : LongConversion) (value : BitVec 64) :
    textOf (tmpbuf target 2 conversion.letter value) =
      conversion.reference value := by
  cases conversion with
  | signed =>
      rw [LongConversion.letter, tmpbuf_signed]
      rfl
  | unsigned =>
      rw [LongConversion.letter, tmpbuf_unsigned]
      rfl
  | hex =>
      rw [LongConversion.letter, tmpbuf_hex]
      rfl

theorem LongArgument.pieceOf_eq
    (argument : LongArgument target) (conversion : LongConversion)
    (errnum : Errno) (rest : List (Arg target)) :
    pieceOf errnum (argument.arg :: rest)
        (.numeric 0 argument.lpref conversion.letter) =
      .ok (⟨0, argument.reference conversion⟩, rest) := by
  cases argument with
  | l value =>
      exact pieceOf_numeric (v := value.setWidth 64)
        (by rw [lpref, numericKind_long]; rfl)
        (text_long conversion value)
  | ll value =>
      exact pieceOf_numeric (v := value)
        (by rw [lpref, numericKind_longLong]; rfl)
        (text_longLong conversion value)
  | j value =>
      exact pieceOf_numeric (v := value)
        (by rw [lpref, numericKind_longLong]; rfl)
        (text_longLong conversion value)

/-! ## Formats -/

/-- The reader turns a plain conversion into its directive. -/
theorem readFrom_plain
    (width : Width) (conversion : PlainConversion target)
    (rest : List Byte) :
    readFrom (.escape 0 [])
        (width.digits ++ conversion.letter :: rest) =
      conversion.directive (decimalValue width.digits) ::
        readFrom (.literal []) rest := by
  rw [readFrom_digits 0 [] width.digits _ width.allDigits,
    List.nil_append, ← widthOf_eq width.bounded]
  cases conversion <;> rfl

theorem readFrom_long
    (argument : LongArgument target) (conversion : LongConversion)
    (rest : List Byte) :
    readFrom (.escape 0 [])
        (argument.modifier ++ conversion.letter :: rest) =
      .numeric 0 argument.lpref conversion.letter ::
        readFrom (.literal []) rest := by
  cases argument <;> cases conversion <;> rfl

/-- The directives one item adds in front of what follows it. -/
theorem readFrom_item
    (item : Item target) (queued rest : List Byte) :
    readFrom (.literal queued) (item.source ++ rest) =
      match item with
      | .literal byte _ => readFrom (.literal (queued ++ [byte])) rest
      | .percent => .run queued :: readFrom (.literal ['%'.toUInt8]) rest
      | .plain _ width conversion =>
          .run queued ::
            conversion.directive (decimalValue width.digits) ::
              readFrom (.literal []) rest
      | .long _ argument conversion =>
          .run queued ::
            .numeric 0 argument.lpref conversion.letter ::
              readFrom (.literal []) rest := by
  cases item with
  | literal byte plain =>
      simp only [Item.source, List.cons_append, List.nil_append, readFrom,
        if_neg plain.2]
  | percent => rfl
  | plain modifiers width conversion =>
      simp only [Item.source, List.cons_append, List.append_assoc,
        List.nil_append, readFrom, if_true, readFrom_modifiers,
        readFrom_plain]
  | long modifiers argument conversion =>
      simp only [Item.source, List.cons_append, List.append_assoc,
        List.nil_append, readFrom, if_true, readFrom_modifiers,
        readFrom_long]

/-- A format is resolved to pieces whose expansion is the reference. -/
theorem piecesOf_items
    (errnum : Errno) (items : List (Item target)) (queued : List Byte)
    (extra : List (Arg target)) :
    ∃ list,
      piecesOf errnum (readFrom (.literal queued) (source items))
          (arguments items ++ extra) = .ok (list, extra) ∧
        render list = queued ++ reference items := by
  induction items generalizing queued with
  | nil =>
      exact ⟨[⟨0, queued⟩], rfl,
        by simp [render, Piece.render, reference]⟩
  | cons item items induction =>
      have opened : source (item :: items) = item.source ++ source items :=
        rfl
      rw [opened, readFrom_item]
      cases item with
      | literal byte plain =>
          obtain ⟨list, resolved, rendered⟩ := induction (queued ++ [byte])
          exact ⟨list, resolved,
            by simp [rendered, reference, Item.reference]⟩
      | percent =>
          obtain ⟨list, resolved, rendered⟩ := induction ['%'.toUInt8]
          refine ⟨⟨0, queued⟩ :: list, ?_, ?_⟩
          · exact piecesOf_cons rfl resolved
          · rw [render, List.flatMap_cons, ← render, rendered]
            simp [Piece.render, reference, Item.reference]
      | plain modifiers width conversion =>
          obtain ⟨list, resolved, rendered⟩ := induction []
          refine ⟨⟨0, queued⟩ ::
            ⟨decimalValue width.digits, conversion.reference⟩ :: list,
            ?_, ?_⟩
          · exact piecesOf_cons rfl
              (piecesOf_cons (conversion.pieceOf_eq errnum _ _) resolved)
          · rw [render, List.flatMap_cons, List.flatMap_cons, ← render,
              rendered]
            simp [Piece.render, reference, Item.reference, List.leftpad]
      | long modifiers argument conversion =>
          obtain ⟨list, resolved, rendered⟩ := induction []
          refine ⟨⟨0, queued⟩ ::
            ⟨0, argument.reference conversion⟩ :: list, ?_, ?_⟩
          · exact piecesOf_cons rfl
              (piecesOf_cons (argument.pieceOf_eq conversion errnum _)
                resolved)
          · rw [render, List.flatMap_cons, List.flatMap_cons, ← render,
              rendered]
            simp [Piece.render, reference, Item.reference]

/-- No item reads `errno`. -/
theorem readFrom_items_errno
    (items : List (Item target)) (queued : List Byte) (width : Nat) :
    .errnoText width ∉ readFrom (.literal queued) (source items) := by
  induction items generalizing queued with
  | nil => simp [source, readFrom]
  | cons item items induction =>
      have opened : source (item :: items) = item.source ++ source items :=
        rfl
      rw [opened, readFrom_item]
      cases item with
      | literal byte plain => exact induction _
      | percent => simp [induction]
      | plain modifiers width conversion =>
          cases conversion <;>
            simp [PlainConversion.directive, induction]
      | long modifiers argument conversion => simp [induction]

/--
With `n = SIZE_MAX` and a callback that always succeeds, the engine hands over
exactly the concatenation of the reference renderings and returns its length.
Arguments beyond those of the format are left alone.
-/
theorem nolibcPrintf_renders
    {σ : Type} (cb : Callback σ) (succeeds : Succeeds cb) (io : σ)
    (items : List (Item target)) (extra : List (Arg target))
    (short : (reference items).length < 2 ^ 31) :
    ∃ handed : List (List Byte),
      handed.flatten = reference items ∧
        nolibcPrintf cb io target.sizeMax (formatString items)
            (arguments items ++ extra) =
          .ok ⟨(reference items).length, extra, deliver cb io handed⟩ := by
  obtain ⟨list, resolved, rendered⟩ :=
    piecesOf_items (cb.errno io) items [] extra
  rw [List.nil_append] at rendered
  have total := render_length list
  rw [rendered] at total
  have room : textLength list < target.sizeMax := by
    rcases target.sizeMax_cases with size | size <;> omega
  refine ⟨chunks target.sizeMax list,
    (chunks_uncut room).trans rendered, ?_⟩
  have nothing :
      (⟨target.sizeMax, 0, arguments items ++ extra, io⟩ :
        Output target σ).written < 2 ^ 32 := Nat.two_pow_pos 32
  have settled : ErrnoSettled cb (directives (formatString items)) :=
    Or.inl fun width => readFrom_items_errno items [] width
  rw [nolibcPrintf_eq_emit,
    emit_eq_pieces succeeds settled nothing resolved]
  simp only [Nat.zero_add, padding_uncut room, ← total,
    intOfUnsigned_of_lt short]

/-- The items of `a%%%#5d%lx` with the arguments -7 and 255. -/
def sampleItems : List (Item .x86_64) :=
  [.literal 'a'.toUInt8 (by decide), .percent,
    .plain ⟨['#'.toUInt8], by decide⟩ ⟨['5'.toUInt8], by decide, by decide⟩
      (.signed (-7)),
    .long ⟨[], by decide⟩ (.l 255) .hex]

theorem nolibcPrintf_renders_sample :
    ∃ handed : List (List Byte),
      handed.flatten = reference sampleItems ∧
        nolibcPrintf ⟨fun io _ => (0, io), fun _ => 0⟩
            () Target.x86_64.sizeMax (formatString sampleItems)
            (arguments sampleItems ++ []) =
          .ok ⟨(reference sampleItems).length, [],
            deliver ⟨fun io _ => (0, io), fun _ => 0⟩ () handed⟩ :=
  nolibcPrintf_renders _ (fun _ _ => rfl) () sampleItems [] (by decide)

end Nolibc.Stdio.Formats
