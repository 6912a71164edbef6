import Mathlib
import Mavlink.Codegen.RustModule
import Mavlink.Proofs.Binary.Widening
import Mavlink.Proofs.Table.FieldRoundTrip

/-!
# Programs that write and read a message

The implementation of a message is a program: statements that write one field after another
with the calls of a payload writer, and expressions that read them with the calls of a payload
reader.  Here it is said what such a program does with the values of a structure.  A program
in which a call does not fit the type of its field does nothing, for it is not compiled.

A value of a structure can also be given by name, as a value that carries its own kind.  A
statement then writes what a table writes of that value, and an expression reads what a table
reads.

* `RustType` --- the types of fields, by which values and programs are told to fit;
* `RustPut.run_putOf` --- a statement writes what the table writes;
* `RustRead.run_ofField` --- an expression reads what the table reads.
-/

namespace Mavlink

theorem PayloadReader.word_lt (r : PayloadReader) (size : Nat) :
    r.word size < Nat.pow 256 size :=
  Nat.lt_of_lt_of_le (Bytes.ofLittle_lt _)
    (Nat.pow_le_pow_right (by decide) (List.length_take_le ..))

/-- A field is a number, a text, or numbers. -/
theorem Field.type_cases (f : Field) : (∃ p, f.type = .scalar p) ∨ (∃ n, f.type = .array .char n) ∨
    ∃ p n, f.type = .array p n ∧ p ≠ .char := by
  cases type : f.type with
  | scalar p => exact .inl ⟨p, rfl⟩
  | array p n =>
    by_cases kind : p = .char
    · exact .inr (.inl ⟨n, by rw [kind]⟩)
    · exact .inr (.inr ⟨p, n, rfl, kind⟩)

namespace Codegen

/-! ## Types and values of structures -/

/-- A type with which a field of a structure is declared. -/
inductive RustType where
  | number (type : NumberType)
  | array (type : NumberType) (length : Nat)
  | text
  deriving DecidableEq

/-- The type for a field.  A character is a byte, and characters are a text. -/
def RustType.ofField : FieldType → RustType
  | .scalar p => .number p.number
  | .array .char _ => .text
  | .array p n => .array p.number n

theorem RustType.ofField_array {p : Primitive} (kind : p ≠ .char) (n : Nat) :
    ofField (.array p n) = .array p.number n := by
  cases p <;> first | rfl | exact absurd rfl kind

/-- A number in a program: its type, and the word that stands for it on the wire. -/
structure RustNumber where
  type : NumberType
  word : Nat
  fits : word < Nat.pow 256 type.size
  deriving DecidableEq

/-- The value of a field of a structure. -/
inductive RustValue where
  | number (n : RustNumber)
  | array (ns : List RustNumber)
  | text (s : String)
  deriving DecidableEq

/-- A value of a structure: its fields by their identifiers. -/
abbrev RustObject := List (String × RustValue)

namespace RustNumber

/-- Whether this is a not-a-number of 32 bits. -/
def isNaN32 (n : RustNumber) : Bool :=
  n.type = .f32 && (⟨UInt32.ofNat n.word⟩ : Binary32).isNaN

/-- The number as a value that carries its own kind. -/
def toValue (n : RustNumber) : Value :=
  match n.type with
  | .i8 | .i16 | .i32 | .i64 => .int (Int64.ofInt (intOfWord n.type.size n.word))
  | .u8 | .u16 | .u32 | .u64 => .uint (UInt64.ofNat n.word)
  | .f32 => .float (⟨UInt32.ofNat n.word⟩ : Binary32).widen
  | .f64 => .float ⟨UInt64.ofNat n.word⟩

end RustNumber

namespace RustValue

/-- The numbers of a value. -/
def numbers : RustValue → List RustNumber
  | number n => [n]
  | array ns => ns
  | text _ => []

/-- The value as one that carries its own kind. -/
def toValue : RustValue → Value
  | number n => n.toValue
  | array ns => .array (ns.map RustNumber.toValue)
  | text s => .text s

/-- The values of a type. -/
inductive HasType : RustValue → RustType → Prop where
  | number {n : RustNumber} {t : NumberType} (type : n.type = t) : HasType (.number n) (.number t)
  | array {ns : List RustNumber} {t : NumberType} {n : Nat} (length : ns.length = n)
      (types : ∀ v ∈ ns, v.type = t) : HasType (.array ns) (.array t n)
  | text {s : String} : HasType (.text s) .text

/-- What a table tells of a field in which a value was read.  It tells a character by its
text. -/
inductive Told : FieldType → RustValue → Value → Prop where
  | character (n : RustNumber) :
      Told (.scalar .char) (.number n) (.text (Text.ofByte (UInt8.ofNat n.word)))
  | value {t : FieldType} (kind : t ≠ .scalar .char) (v : RustValue) : Told t v v.toValue

end RustValue

/-! ## Writing -/

/-- The call that writes a number of a type. -/
def RustNumber.put (t : NumberType) (w : PayloadWriter) (n : RustNumber) : Option PayloadWriter :=
  if n.type = t then some (w.putWord t.size n.word) else none

namespace RustPut

/-- Runs a statement in a message of a name. -/
def run (message : String) (self : RustObject) (w : PayloadWriter) :
    RustPut → Option (Except EncodeError PayloadWriter)
  | .number t ident =>
    match self.lookup ident with
    | some (.number n) => (n.put t w).map .ok
    | _ => none
  | .each t ident =>
    match self.lookup ident with
    | some (.array ns) => (ns.foldlM (RustNumber.put t) w).map .ok
    | _ => none
  | .text field ident length =>
    match self.lookup ident with
    | some (.text s) => some (w.putText message field s length)
    | _ => none

/-- Runs statements one after another, up to the first that fails. -/
def runAll (message : String) (self : RustObject) (w : PayloadWriter) :
    List RustPut → Option (Except EncodeError PayloadWriter)
  | [] => some (.ok w)
  | put :: puts =>
    match put.run message self w with
    | some (.ok w) => runAll message self w puts
    | stopped => stopped

end RustPut

/-! ## Reading -/

/-- An expression that reads a field.  How long an array is, is known by its type. -/
inductive RustRead where
  | number (type : NumberType)
  | each (type : NumberType)
  | text (length : Nat)
  deriving DecidableEq

/-- What is spelled of an expression. -/
def RustGet.spelled : RustGet → RustRead
  | .number t => .number t
  | .each t _ => .each t
  | .text n => .text n

/-- The call that reads a number of a type. -/
def RustNumber.get (t : NumberType) (r : PayloadReader) : RustNumber :=
  ⟨t, r.word t.size, r.word_lt t.size⟩

/-- Reads numbers of a type one after another. -/
def RustNumber.getAll (t : NumberType) : Nat → PayloadReader → List RustNumber × PayloadReader
  | 0, r => ([], r)
  | n + 1, r =>
    let (ns, r') := getAll t n (r.skip t.size)
    (get t r :: ns, r')

namespace RustRead

/-- Evaluates an expression for a field of a type. -/
def run (r : PayloadReader) : RustRead → RustType → Option (RustValue × PayloadReader)
  | .number t, .number declared =>
    if declared = t then some (.number (.get t r), r.skip t.size) else none
  | .each t, .array declared n =>
    if declared = t then
      let (ns, r') := RustNumber.getAll t n r
      some (.array ns, r')
    else none
  | .text n, .text => some (.text (r.text n), r.skip n)
  | _, _ => none

/-- Evaluates the expressions of fields one after another. -/
def runAll (types : List (String × RustType)) (r : PayloadReader) :
    List (String × RustRead) → Option RustObject
  | [] => some []
  | (ident, get) :: gets => do
    let t ← types.lookup ident
    let (v, r') ← get.run r t
    let others ← runAll types r' gets
    return (ident, v) :: others

end RustRead

/-! ## Implementations -/

/-- What the text of the implementation of a message says. -/
structure RustImpl where
  ident : String
  id : Nat
  name : String
  fingerprint : Nat
  baseLength : Nat
  maxLength : Nat
  puts : List RustPut
  gets : List (String × RustRead)
  deriving DecidableEq

namespace RustImpl

/-- The payload of a structure. -/
def encode (i : RustImpl) (self : RustObject) (version : Version) :
    Option (Except EncodeError Payload) :=
  (RustPut.runAll i.name self (.start i.id i.baseLength) i.puts).map (· >>= (·.finish version))

/-- The structure of a payload.  Fields are declared with their types. -/
def decode (i : RustImpl) (types : List (String × RustType)) (p : Payload) :
    Option (Except DecodeError RustObject) :=
  match PayloadReader.start p i.maxLength with
  | .error e => some (.error e)
  | .ok r => (RustRead.runAll types r i.gets).map .ok

end RustImpl

/-! ## What a table writes and reads -/

/-- The word of an integer in the range of its width. -/
theorem wordOfInt_intOfWord {size word : Nat} (fits : word < Nat.pow 256 size) :
    wordOfInt size (intOfWord size word) = word := by
  have word_emod : (word : Int) % Nat.pow 256 size = word := by
    rw [← Int.natCast_emod, Nat.mod_eq_of_lt fits]
  unfold wordOfInt intOfWord
  split
  · rw [word_emod, Int.toNat_natCast]
  · rw [Int.sub_emod_right, word_emod, Int.toNat_natCast]

/-- A signed integer is in the range of its width. -/
theorem intOfWord_range {size word : Nat} (pos : 0 < size) (fits : word < Nat.pow 256 size) :
    -(Nat.pow 256 size / 2 : Int) ≤ intOfWord size word ∧
      intOfWord size word ≤ Nat.pow 256 size / 2 - 1 := by
  obtain ⟨half, even⟩ := exists_half_pow pos
  unfold intOfWord
  rw [even] at fits ⊢
  rw [Nat.cast_mul]
  split <;> omega

namespace RustNumber

variable {n : RustNumber} {p : Primitive}

theorem toValue_signed (type : n.type = p.number) (signed : p.isSigned = true) :
    n.toValue = .int (Int64.ofInt (intOfWord p.size n.word)) := by
  obtain ⟨t, word, fits⟩ := n
  obtain rfl : t = p.number := type
  cases p <;> first | rfl | cases signed

theorem toValue_unsigned (type : n.type = p.number) (number : p.isFloat = false)
    (unsigned : p.isSigned = false) : n.toValue = .uint (UInt64.ofNat n.word) := by
  obtain ⟨t, word, fits⟩ := n
  obtain rfl : t = p.number := type
  cases p <;>
    first | rfl | exact absurd unsigned (by decide) | exact absurd number (by decide)

theorem word_lt_of_type (type : n.type = p.number) : n.word < Nat.pow 256 p.size := by
  rw [Primitive.size, ← type]
  exact n.fits

section PutPrimitive

variable (message : String) (f : Field) (w : PayloadWriter)

theorem putPrimitive_single (type : n.type = Primitive.float.number)
    (number : n.isNaN32 = false) :
    Table.putPrimitive message f .float w n.toValue
      = .ok (w.putWord Primitive.float.size n.word) := by
  have value : n.toValue = .float (⟨UInt32.ofNat n.word⟩ : Binary32).widen := by
    rw [toValue, type]
    rfl
  have ordered : (⟨UInt32.ofNat n.word⟩ : Binary32).isNaN = false := by
    simpa [isNaN32, type, Primitive.number] using number
  have isFloat : Primitive.float.isFloat = true := rfl
  rw [Table.putPrimitive, if_pos isFloat, value]
  simp only [Value.toFloat?, if_true, Binary32.exceedsSingle_widen ordered,
    Binary32.narrow_widen ordered]
  show Except.ok (w.putWord 4 (UInt32.ofNat n.word).toNat) = _
  rw [UInt32.toNat_ofNat_of_lt' (word_lt_of_type type)]
  rfl

theorem putPrimitive_double (type : n.type = Primitive.double.number) :
    Table.putPrimitive message f .double w n.toValue
      = .ok (w.putWord Primitive.double.size n.word) := by
  have value : n.toValue = .float ⟨UInt64.ofNat n.word⟩ := by
    rw [toValue, type]
    rfl
  have isFloat : Primitive.double.isFloat = true := rfl
  rw [Table.putPrimitive, if_pos isFloat, value]
  show Except.ok (w.putWord 8 (UInt64.ofNat n.word).toNat) = _
  rw [UInt64.toNat_ofNat_of_lt' (word_lt_of_type type)]
  rfl

theorem putPrimitive_signed (type : n.type = p.number) (number : p.isFloat = false)
    (signed : p.isSigned = true) :
    Table.putPrimitive message f p w n.toValue = .ok (w.putWord p.size n.word) := by
  have fits := word_lt_of_type type
  have wide := p.pow_size_le
  obtain ⟨low, high⟩ := intOfWord_range p.size_pos fits
  have same : (Int64.ofInt (intOfWord p.size n.word)).toInt = intOfWord p.size n.word :=
    Int64.toInt_ofInt_of_le (by omega) (by omega)
  simp only [Table.putPrimitive, number, Bool.false_eq_true, if_false, toValue_signed type signed,
    Value.toInt?, same, Primitive.range?, signed, if_true, Option.getD_some]
  rw [if_neg (by omega)]
  show Except.ok (w.putWord p.size (wordOfInt p.size (intOfWord p.size n.word))) = _
  rw [wordOfInt_intOfWord fits]

theorem putPrimitive_unsigned (type : n.type = p.number) (number : p.isFloat = false)
    (unsigned : p.isSigned = false) (isUnsigned : p.isUnsigned = true) :
    Table.putPrimitive message f p w n.toValue = .ok (w.putWord p.size n.word) := by
  have fits := word_lt_of_type type
  have same : (UInt64.ofNat n.word).toNat = n.word :=
    UInt64.toNat_ofNat_of_lt' (Nat.lt_of_lt_of_le fits p.pow_size_le)
  simp only [Table.putPrimitive, number, Bool.false_eq_true, if_false,
    toValue_unsigned type number unsigned, Value.toInt?, same, Primitive.range?, unsigned,
    isUnsigned, if_true, Option.getD_some]
  rw [if_neg (by omega)]
  show Except.ok (w.putWord p.size (wordOfInt p.size n.word)) = _
  rw [wordOfInt_of_nonneg (by omega) (by omega), Int.toNat_natCast]

/-- A table writes the number as the program does. -/
theorem putPrimitive_toValue (type : n.type = p.number) (kind : p ≠ .char)
    (number : n.isNaN32 = false) :
    Table.putPrimitive message f p w n.toValue = .ok (w.putWord p.size n.word) := by
  by_cases isFloat : p.isFloat = true
  · rcases Primitive.eq_of_isFloat isFloat with rfl | rfl
    · exact putPrimitive_single message f w type number
    · exact putPrimitive_double message f w type
  · have isFloat : p.isFloat = false := Bool.eq_false_of_not_eq_true isFloat
    rcases Primitive.isInteger_of_ne isFloat kind with signed | ⟨unsigned, isUnsigned⟩
    · exact putPrimitive_signed message f w type isFloat signed
    · exact putPrimitive_unsigned message f w type isFloat unsigned isUnsigned

end PutPrimitive

/-- A loop writes what a table writes of an array. -/
theorem foldlM_put (message : String) (f : Field) (w : PayloadWriter) (kind : p ≠ .char)
    {ns : List RustNumber} (types : ∀ n ∈ ns, n.type = p.number)
    (numbers : ∀ n ∈ ns, n.isNaN32 = false) :
    ∃ w', ns.foldlM (put p.number) w = some w' ∧
      (ns.map toValue).foldlM (Table.putPrimitive message f p) w = .ok w' := by
  induction ns generalizing w with
  | nil => exact ⟨w, rfl, rfl⟩
  | cons n ns ih =>
    obtain ⟨type, types⟩ := List.forall_mem_cons.1 types
    obtain ⟨number, numbers⟩ := List.forall_mem_cons.1 numbers
    obtain ⟨w', program, table⟩ := ih (w.putWord p.size n.word) types numbers
    refine ⟨w', ?_, ?_⟩
    · rw [List.foldlM_cons, put, if_pos type]
      exact program
    · rw [List.map_cons, List.foldlM_cons, putPrimitive_toValue message f w type kind number]
      exact table

end RustNumber

theorem putOf_array {f : Field} {p : Primitive} {n : Nat} (h : f.type = .array p n)
    (kind : p ≠ .char) : RustModule.putOf f = .each p.number (RustModule.identOf f.name) := by
  unfold RustModule.putOf
  rw [h]
  cases p <;> first | rfl | exact absurd rfl kind

/-- **A statement writes what the table writes** of the value of its field. -/
theorem RustPut.run_putOf (message : String) {self : RustObject} {f : Field} {v : RustValue}
    (held : self.lookup (RustModule.identOf f.name) = some v)
    (typed : v.HasType (.ofField f.type))
    (numbers : ∀ n ∈ v.numbers, n.isNaN32 = false) (w : PayloadWriter) :
    (RustModule.putOf f).run message self w = some (Table.putValue message f w v.toValue) := by
  rcases f.type_cases with ⟨p, type_eq⟩ | ⟨n, type_eq⟩ | ⟨p, n, type_eq, kind⟩
  · rw [type_eq, RustType.ofField] at typed
    cases typed with
    | @number n _ type =>
      have number : n.isNaN32 = false := numbers n (List.mem_singleton_self n)
      have program : (RustModule.putOf f).run message self w
          = some (.ok (w.putWord p.size n.word)) := by
        simp only [RustModule.putOf, type_eq, RustPut.run, held, RustNumber.put, if_pos type]
        rfl
      rw [program, RustValue.toValue]
      by_cases kind : p = .char
      · subst kind
        -- A byte is given for the character, and a table takes the number of a byte.
        have byte : n.type = Primitive.uint8.number := type
        have value := RustNumber.toValue_unsigned byte rfl rfl
        have written := RustNumber.putPrimitive_toValue message f w byte (by decide) number
        rw [value] at written ⊢
        simp only [Table.putValue, type_eq]
        exact congrArg some written.symm
      · rw [Table.putValue_scalar type_eq kind,
          RustNumber.putPrimitive_toValue message f w type kind number]
  · rw [type_eq, RustType.ofField] at typed
    cases typed with
    | text =>
      simp only [RustModule.putOf, type_eq, RustPut.run, held, Table.putValue, RustValue.toValue]
  · rw [type_eq, RustType.ofField_array kind] at typed
    cases typed with
    | @array ns _ _ length types =>
      obtain ⟨w', program, table⟩ := RustNumber.foldlM_put message f w kind types numbers
      have whole : f.type = .array p (ns.map RustNumber.toValue).length := by
        rw [type_eq, List.length_map, length]
      rw [putOf_array type_eq kind, RustValue.toValue, Table.putValue_array whole kind, table]
      simp only [RustPut.run, held, program]
      rfl

/-- Statements write what the table writes of the fields. -/
theorem RustPut.runAll_putOf {message : String} {self : RustObject} {v : MessageValue}
    {values : Field → RustValue} {fields : List Field}
    (held : ∀ f ∈ fields, self.lookup (RustModule.identOf f.name) = some (values f))
    (given : ∀ f ∈ fields, v.get? f.name = some (values f).toValue)
    (typed : ∀ f ∈ fields, (values f).HasType (.ofField f.type))
    (numbers : ∀ f ∈ fields, ∀ n ∈ (values f).numbers, n.isNaN32 = false) (w : PayloadWriter) :
    RustPut.runAll message self w (fields.map RustModule.putOf)
      = some (fields.foldlM (Table.putField message v) w) := by
  induction fields generalizing w with
  | nil => rfl
  | cons f fields ih =>
    simp only [List.forall_mem_cons] at held given typed numbers
    have program := RustPut.run_putOf message held.1 typed.1 numbers.1 w
    have table : Table.putField message v w f
        = Table.putValue message f w (values f).toValue := by
      rw [Table.putField, given.1]
    rw [List.map_cons, List.foldlM_cons, table, RustPut.runAll, program]
    cases Table.putValue message f w (values f).toValue with
    | error e => rfl
    | ok w' => exact ih held.2 given.2 typed.2 numbers.2 w'

/-! ## Reading -/

namespace RustNumber

/-- A table reads the number that the program reads. -/
theorem readPrimitive_eq (r : PayloadReader) (p : Primitive) :
    Table.readPrimitive r p = (get p.number r).toValue := by
  cases p <;> rfl

/-- Numbers read one after another are those at their places. -/
theorem getAll_eq (t : NumberType) (n : Nat) (r : PayloadReader) :
    getAll t n r
      = ((List.range n).map fun i => get t (r.skip (i * t.size)), r.skip (n * t.size)) := by
  have skipped : ∀ (r : PayloadReader) (k : Nat),
      (r.skip t.size).skip (k * t.size) = r.skip ((k + 1) * t.size) := by
    intro r k
    rw [PayloadReader.skip_skip, Nat.succ_mul, Nat.add_comm]
  induction n generalizing r with
  | zero => simp [getAll, PayloadReader.skip]
  | succ n ih =>
    have here : r.skip (0 * t.size) = r := by simp [PayloadReader.skip]
    rw [getAll, ih, List.range_succ_eq_map, List.map_cons, List.map_map, here, skipped]
    simp only [skipped, Function.comp_def, Nat.succ_eq_add_one]

end RustNumber

/-- The expression that is spelled for a field. -/
def RustRead.ofField (f : Field) : String × RustRead :=
  ((RustModule.getOf f).1, (RustModule.getOf f).2.spelled)

theorem RustRead.ofField_array {f : Field} {p : Primitive} {n : Nat} (h : f.type = .array p n)
    (kind : p ≠ .char) :
    RustRead.ofField f = (RustModule.identOf f.name, .each p.number) := by
  unfold RustRead.ofField RustModule.getOf
  rw [h]
  cases p <;> first | rfl | exact absurd rfl kind

/-- The byte of a character, and its text. -/
theorem text_one (r : PayloadReader) :
    r.text 1 = Text.ofByte (UInt8.ofNat (RustNumber.get .u8 r).word) := by
  obtain ⟨rest⟩ := r
  cases rest with
  | nil => exact Value.text.inj (Table.readValue_nil (.scalar .char))
  | cons b rest =>
    have word : (RustNumber.get .u8 ⟨b :: rest⟩).word = b.toNat := rfl
    rw [word, UInt8.ofNat_toNat, ← Text.decodeLossy_takeWhile_byte]
    rfl

/-- **An expression reads what the table reads** of its field. -/
theorem RustRead.run_ofField (f : Field) (r : PayloadReader) :
    ∃ v, (RustRead.ofField f).2.run r (.ofField f.type) = some (v, r.skip f.size) ∧
      v.HasType (.ofField f.type) ∧ RustValue.Told f.type v (Table.readValue r f.type) := by
  rcases f.type_cases with ⟨p, type_eq⟩ | ⟨n, type_eq⟩ | ⟨p, n, type_eq, kind⟩
  · rw [type_eq, RustType.ofField]
    refine ⟨.number (.get p.number r), ?_, .number rfl, ?_⟩
    · simp only [RustRead.ofField, RustModule.getOf, type_eq, RustGet.spelled, RustRead.run,
        if_true, Field.size]
      rfl
    · by_cases kind : p = .char
      · subst kind
        rw [Table.readValue, text_one]
        exact .character _
      · rw [Table.readValue_scalar kind, RustNumber.readPrimitive_eq]
        exact .value (by simpa using kind) (.number _)
  · rw [type_eq, RustType.ofField]
    refine ⟨.text (r.text n), ?_, .text, .value (by simp) (.text _)⟩
    simp only [RustRead.ofField, RustModule.getOf, type_eq, RustGet.spelled, RustRead.run,
      Field.size, FieldType.size]
    simp [Primitive.size, Primitive.number, NumberType.size]
  · rw [type_eq, RustType.ofField_array kind]
    refine ⟨.array (RustNumber.getAll p.number n r).1, ?_, .array ?_ ?_, ?_⟩
    · rw [RustRead.ofField_array type_eq kind, RustNumber.getAll_eq]
      simp only [RustRead.run, RustNumber.getAll_eq, if_true, Field.size, type_eq, FieldType.size,
        Nat.mul_comm]
      rfl
    · rw [RustNumber.getAll_eq, List.length_map, List.length_range]
    · rw [RustNumber.getAll_eq]
      intro v hv
      obtain ⟨i, -, rfl⟩ := List.mem_map.1 hv
      rfl
    · have same : Table.readValue r (.array p n)
          = (RustValue.array (RustNumber.getAll p.number n r).1).toValue := by
        rw [Table.readValue_array kind, RustValue.toValue, RustNumber.getAll_eq, List.map_map]
        simp only [RustNumber.readPrimitive_eq]
        rfl
      rw [same]
      exact .value (by simp) _

/-- Expressions read what the table reads of the fields. -/
theorem RustRead.runAll_ofField {types : List (String × RustType)} {fields : List Field}
    (declared : ∀ f ∈ fields, types.lookup (RustModule.identOf f.name) = some (.ofField f.type))
    (r : PayloadReader) :
    ∃ object, RustRead.runAll types r (fields.map RustRead.ofField) = some object ∧
      object.map (·.1) = fields.map (RustModule.identOf ·.name) ∧
      ∀ f ∈ fields, ∃ v told, (RustModule.identOf f.name, v) ∈ object ∧
        v.HasType (.ofField f.type) ∧ (f.name, told) ∈ Table.readFields r fields ∧
        RustValue.Told f.type v told := by
  induction fields generalizing r with
  | nil => exact ⟨[], rfl, rfl, fun _ hf => absurd hf List.not_mem_nil⟩
  | cons f fields ih =>
    obtain ⟨first, declared⟩ := List.forall_mem_cons.1 declared
    obtain ⟨v, read, typed, told⟩ := RustRead.run_ofField f r
    obtain ⟨object, reads, idents, each⟩ := ih declared (r.skip f.size)
    refine ⟨(RustModule.identOf f.name, v) :: object, ?_, ?_, ?_⟩
    · have name : RustRead.ofField f = (RustModule.identOf f.name, (RustRead.ofField f).2) := rfl
      rw [List.map_cons, name, RustRead.runAll, first]
      simp only [read, reads, Option.bind_eq_bind, Option.bind_some]
      rfl
    · rw [List.map_cons, List.map_cons, idents]
    · intro g hg
      rw [Table.readFields]
      rcases List.mem_cons.1 hg with rfl | hg
      · exact ⟨v, _, List.mem_cons_self, typed, List.mem_cons_self, told⟩
      · obtain ⟨v', told', inside, typed', given, tells⟩ := each g hg
        exact ⟨v', told', List.mem_cons_of_mem _ inside, typed', List.mem_cons_of_mem _ given,
          tells⟩

end Codegen
end Mavlink
