import ZilkerSdk.Props.Model
import ZilkerSdk.Util.StringUtils

/-!
# Types of properties

Model of `services/props/core/src/propertyTypeDefinitions.c`.  A property may have a type
definition, and a value is checked against it.  A check succeeds or refuses the value with a
message.

* `propertyTypeDef` is a tag with a union; here each type comes with the member of the union that
  belongs to it.
* The limits are kept in 64 bits and cut down to the width of the type before they are compared.
-/

namespace ZilkerSdk.Props

open Lib Types Util

/-! ## Definitions of types -/

structure UnsignedIntLimits where
  minValue : UInt64
  maxValue : UInt64

structure SignedIntLimits where
  minValue : Int64
  maxValue : Int64

/-- `propertyTypeDef`: the restrictions may be NULL. -/
inductive PropertyTypeDef where
  | string
  | boolean
  | uint64 (restrictions : Option UnsignedIntLimits)
  | uint32 (restrictions : Option UnsignedIntLimits)
  | uint16 (restrictions : Option UnsignedIntLimits)
  | uint8 (restrictions : Option UnsignedIntLimits)
  | int64 (restrictions : Option SignedIntLimits)
  | int32 (restrictions : Option SignedIntLimits)
  | int16 (restrictions : Option SignedIntLimits)
  | int8 (restrictions : Option SignedIntLimits)
  | enum (enumValues : Option (List CString))
  | url
  | urlSet
  | unknown

/-- `propertyTypesMap` -/
abbrev PropertyTypes := IcHashMap Key PropertyTypeDef

/-! ## Checks -/

/-- A value is accepted, or refused with a message. -/
abbrev Check := Except CString Unit

/-- The messages all begin with the value. -/
def refuse (suggestedValue why : CString) : Check :=
  .error ("Value ".toList ++ suggestedValue ++ why)

def isValueValidBoolean (suggestedValue : CString) : Check :=
  match stringToBoolStrict suggestedValue with
  | none => refuse suggestedValue " is not a valid boolean value".toList
  | some _ => .ok ()

/-- The checks of numbers: convert, and compare with the limits if there are any. -/
def isValueValidNumber {ν : Type} [LE ν] [DecidableLE ν] (typeName : String)
    (convert : CString → Option ν) (print : ν → CString) (limits : Option (ν × ν))
    (suggestedValue : CString) : Check :=
  match convert suggestedValue with
  | none => refuse suggestedValue (" is not a valid ".toList ++ typeName.toList ++ " value".toList)
  | some n =>
    match limits with
    | none => .ok ()
    | some (minValue, maxValue) =>
      if minValue ≤ n ∧ n ≤ maxValue then .ok ()
      else refuse suggestedValue
        (" is outside the range ".toList ++ print minValue ++ " to ".toList ++ print maxValue)

def isValueValidUInt64 (restrictions : Option UnsignedIntLimits) : CString → Check :=
  isValueValidNumber "uint64" stringToUint64 decimal
    (restrictions.map fun limits => (limits.minValue.toNat, limits.maxValue.toNat))

def isValueValidUint32 (restrictions : Option UnsignedIntLimits) : CString → Check :=
  isValueValidNumber "uint32" stringToUint32 decimal
    (restrictions.map fun limits =>
      (limits.minValue.toUInt32.toNat, limits.maxValue.toUInt32.toNat))

def isValueValidUint16 (restrictions : Option UnsignedIntLimits) : CString → Check :=
  isValueValidNumber "uint16" stringToUint16 decimal
    (restrictions.map fun limits =>
      (limits.minValue.toUInt16.toNat, limits.maxValue.toUInt16.toNat))

def isValueValidUint8 (restrictions : Option UnsignedIntLimits) : CString → Check :=
  isValueValidNumber "uint8" stringToUint8 decimal
    (restrictions.map fun limits => (limits.minValue.toUInt8.toNat, limits.maxValue.toUInt8.toNat))

def isValueValidInt64 (restrictions : Option SignedIntLimits) : CString → Check :=
  isValueValidNumber "int64" stringToInt64 decimalInt
    (restrictions.map fun limits => (limits.minValue.toInt, limits.maxValue.toInt))

def isValueValidInt32 (restrictions : Option SignedIntLimits) : CString → Check :=
  isValueValidNumber "int32" stringToInt32 decimalInt
    (restrictions.map fun limits => (limits.minValue.toInt32.toInt, limits.maxValue.toInt32.toInt))

def isValueValidInt16 (restrictions : Option SignedIntLimits) : CString → Check :=
  isValueValidNumber "int16" stringToInt16 decimalInt
    (restrictions.map fun limits => (limits.minValue.toInt16.toInt, limits.maxValue.toInt16.toInt))

def isValueValidInt8 (restrictions : Option SignedIntLimits) : CString → Check :=
  isValueValidNumber "int8" stringToInt8 decimalInt
    (restrictions.map fun limits => (limits.minValue.toInt8.toInt, limits.maxValue.toInt8.toInt))

def isValueValidForEnum (enumValues : Option (List CString)) (suggestedValue : CString) : Check :=
  match enumValues with
  | none => .ok ()
  | some values =>
    if suggestedValue ∈ values then .ok ()
    else refuse suggestedValue " is not a value member of the defined ENUM".toList

/-- The `switch` over the types. -/
def isValueValidFor (typeDef : PropertyTypeDef) (suggestedValue : CString) : Check :=
  match typeDef with
  | .string | .url | .urlSet => .ok ()
  | .boolean => isValueValidBoolean suggestedValue
  | .uint64 restrictions => isValueValidUInt64 restrictions suggestedValue
  | .int64 restrictions => isValueValidInt64 restrictions suggestedValue
  | .uint32 restrictions => isValueValidUint32 restrictions suggestedValue
  | .int32 restrictions => isValueValidInt32 restrictions suggestedValue
  | .uint16 restrictions => isValueValidUint16 restrictions suggestedValue
  | .int16 restrictions => isValueValidInt16 restrictions suggestedValue
  | .uint8 restrictions => isValueValidUint8 restrictions suggestedValue
  | .int8 restrictions => isValueValidInt8 restrictions suggestedValue
  | .enum values => isValueValidForEnum values suggestedValue
  | .unknown => .ok ()

/-- `isValueValid`: a property without a type takes every value, and NULL is always taken. -/
def isValueValid (types : PropertyTypes) (propertyName : CString)
    (suggestedValue : Option CString) : Check :=
  match hashMapGet types (textKey propertyName) with
  | none => .ok ()
  | some typeDef =>
    match suggestedValue with
    | none => .ok ()
    | some value => isValueValidFor typeDef value

end ZilkerSdk.Props
