import ChipSupport.Calendar

/-!
# Faults

Everything that can be wrong with an input, and the text that reports it.

## Main definitions

* `Fault` — the causes.
* `Fault.message` — the report.
* `Fault.isDocumentFault`, `Fault.isReported` — the causes that a reader of documents sets aside,
  and those that end a run with a message.
-/

namespace ChipSupport

/-- What can be wrong with an input. -/
inductive Fault where
  /-- A document without a device node. -/
  | notADeviceDocument (source : String)
  /-- A peripheral that is not described both as a part of the device and as a module. -/
  | moduleMissing (source peripheral : String)
  /-- An instance node without its register group, signals or parameters. -/
  | instanceIncomplete (instanceName : String)
  /-- A peripheral whose instances cannot be used, with the reason. -/
  | instancesUnusable (problem : String)
  /-- A field that refers to a value group that its module does not have. -/
  | valueGroupMissing (group field moduleName : String)
  /-- A device without the memory segment of a region that every script needs. -/
  | regionMissing (device region : String)
  /-- A description file with nothing in it. -/
  | descriptionEmpty (source : String)
  /-- A description that breaks the rules for descriptions. -/
  | descriptionInvalid (source : String) (problems : List String)
  /-- A memory region that ends before it begins. -/
  | regionReversed (source region : String)
  /-- A style name that is not one of those known. -/
  | styleUnknown (name : String) (known : List String)
  /-- A style file that breaks the rules for style files. -/
  | styleInvalid (source : String) (problems : List String)
  /-- A device without a document in the pack directory. -/
  | documentNotFound (device packs : String)
  /-- A path at which there is no file. -/
  | fileNotFound (path : String)
  /-- A path at which there is a directory where a file is needed. -/
  | fileIsDirectory (path : String)
  /-- A path that runs through a file as if it were a directory. -/
  | notADirectory (path : String)
  /-- A path at which there is a file where a directory is needed. -/
  | fileExists (path : String)
  /-- A path in which a name is longer than a directory can hold. -/
  | nameTooLong (path : String)
  /-- A path with a null character. -/
  | pathHasNull
  /-- A text that is no numeral of the base. -/
  | numeralMalformed (base : Nat) (text : String)
  /-- A numeral with more decimal digits than are read. -/
  | numeralTooLong (digits : Nat)
  /-- A number with more decimal digits than are written. -/
  | numberTooLong
  /-- A text that is no number with a fraction. -/
  | fractionMalformed (text : String)
  /-- A number with more than one exponent. -/
  | exponentRepeated
  /-- A whole number beyond the range of numbers with a fraction. -/
  | fractionTooLarge
  /-- A number with a fraction where digits in base sixteen are written. -/
  | fractionInHex
  /-- A text that is no truth value. -/
  | truthUnknown (text : String)
  /-- A moment that the calendar does not have. -/
  | dateInvalid (problem : DateProblem)
  /-- A moment after the last one of the calendar. -/
  | dateTooLate
  /-- A number that is the code of no character. -/
  | characterUnknown
  /-- A number that is too large to be looked up as the code of a character. -/
  | characterTooLarge
  /-- A description in an edition of the notation that is not known. -/
  | editionUnknown
  /-- A key that an ordered table has already. -/
  | keyRepeated
  /-- A width into which no text can be wrapped. -/
  | widthInvalid (width : Int)
  /-- A dollar sign that begins no placeholder. -/
  | placeholderMalformed (line column : Nat)
  /-- A placeholder for which there is no value. -/
  | placeholderUnknown (name : String)
  /-- A licence that is not one of those known. -/
  | licenseUnknown (name : String)
  /-- A list of access qualifiers that has not four of them. -/
  | qualifierCount (count : Nat)
  /-- A block of bits of negative width or at a negative position. -/
  | shiftNegative
  /-- An entity declaration in a document. -/
  | entityDeclared
  /-- A node that is no table where its parts are asked for. -/
  | nodeWithoutParts
  /-- A value of a kind that the operation does not take. -/
  | valueUnsuitable
  /-- A position outside of a sequence. -/
  | positionOutside
  /-- A division by zero. -/
  | divisionByZero
  /-- Parts that stand in one another too deep, or without end. -/
  | nestingTooDeep
  /-- A text that is not well-formed as a markup document. -/
  | markupMalformed
  /-- A text that is not well-formed as a description. -/
  | descriptionMalformed
  deriving DecidableEq, Repr, Inhabited

namespace Fault

/-- Violations of a schema, in one line. -/
def problemList (source : String) (problems : List String) : String :=
  source ++ ": " ++ String.intercalate "; " problems

/-- The report of a fault. -/
def message : Fault → String
  | notADeviceDocument source =>
    source ++ ": no <devices><device> node, this is not an ATDF document"
  | moduleMissing source peripheral =>
    source ++ ": module nodes not found for peripheral " ++ peripheral
  | instanceIncomplete name =>
    "instance " ++ name ++ " lacks its register-group, signals or parameters node"
  | instancesUnusable problem => problem
  | valueGroupMissing group field moduleName =>
    "could not find value-group " ++ group ++ " for bitfield " ++ field ++ " in module "
      ++ moduleName
  | regionMissing device region =>
    device ++ ": no memory segment for the '" ++ region ++ "' region"
  | descriptionEmpty source => source ++ ": empty device description"
  | descriptionInvalid source problems => problemList source problems
  | regionReversed source region => source ++ ": region " ++ region ++ " ends before it begins"
  | styleUnknown name known =>
    "unknown style '" ++ name ++ "', choose one of " ++ String.intercalate ", " known
  | styleInvalid source problems => problemList source problems
  | documentNotFound device packs =>
    "Cannot find ATDF file for device " ++ device ++ " under " ++ packs
  | fileNotFound path => "[Errno 2] No such file or directory: " ++ Text.quoted path
  | fileIsDirectory path => "[Errno 21] Is a directory: " ++ Text.quoted path
  | notADirectory path => "[Errno 20] Not a directory: " ++ Text.quoted path
  | fileExists path => "[Errno 17] File exists: " ++ Text.quoted path
  | nameTooLong path => "[Errno 36] File name too long: " ++ Text.quoted path
  | pathHasNull => "embedded null byte"
  | numeralMalformed base text =>
    "invalid literal for int() with base " ++ Numeral.natural base ++ ": " ++ Text.quoted text
  | numeralTooLong digits =>
    "Exceeds the limit (4300 digits) for integer string conversion: value has "
      ++ Numeral.natural digits
      ++ " digits; use sys.set_int_max_str_digits() to increase the limit"
  | numberTooLong =>
    "Exceeds the limit (4300 digits) for integer string conversion; "
      ++ "use sys.set_int_max_str_digits() to increase the limit"
  | fractionMalformed text => "could not convert string to float: " ++ Text.quoted text
  | exponentRepeated => "too many values to unpack (expected 2)"
  | fractionTooLarge => "int too large to convert to float"
  | fractionInHex => "Unknown format code 'X' for object of type 'float'"
  | truthUnknown text => Text.quoted text
  | dateInvalid problem => problem.message
  | dateTooLate => "date value out of range"
  | characterUnknown => "chr() arg not in range(0x110000)"
  | characterTooLarge => "number too large for a character"
  | editionUnknown => "unknown edition"
  | keyRepeated => "key repeated"
  | widthInvalid width => "invalid width " ++ Numeral.decimal width ++ " (must be > 0)"
  | placeholderMalformed line column =>
    "Invalid placeholder in string: line " ++ Numeral.natural line ++ ", col "
      ++ Numeral.natural column
  | placeholderUnknown name => Text.quoted name
  | licenseUnknown name => Text.quoted name
  | qualifierCount count =>
    if count < 4 then
      "not enough values to unpack (expected 4, got " ++ Numeral.natural count ++ ")"
    else "too many values to unpack (expected 4)"
  | shiftNegative => "negative shift count"
  | entityDeclared => "entities are disabled"
  | nodeWithoutParts => "node without parts"
  | valueUnsuitable => "unsuitable value"
  | positionOutside => "position outside of the sequence"
  | divisionByZero => "division by zero"
  | nestingTooDeep => "nested too deep"
  | markupMalformed => "malformed document"
  | descriptionMalformed => "malformed description"

/-- Whether a fault says that a document lacks something that a generator relies on. -/
def isDocumentFault : Fault → Bool
  | notADeviceDocument _ | moduleMissing _ _ | instanceIncomplete _ | instancesUnusable _
  | valueGroupMissing _ _ _ | regionMissing _ _ => true
  | _ => false

/-- Whether a fault ends a run with its message. -/
def isReported : Fault → Bool
  | descriptionEmpty _ | descriptionInvalid _ _ | regionReversed _ _ | styleUnknown _ _
  | styleInvalid _ _ | documentNotFound _ _ | fileNotFound _ => true
  | f => f.isDocumentFault

end Fault

end ChipSupport
