import TrustStore.Certificate.Element
import TrustStore.Text.Ascii

/-!
# Validity times

A certificate has two times, in a short form with a two-digit year or in a long form.  Only their
shape is checked: each is a time of a day of the calendar.  The two are not compared.
-/

namespace TrustStore.Certificate

namespace Validity

/-! ### Calendar -/

def isLeapYear (year : Nat) : Bool := year % 4 == 0 && (year % 100 != 0 || year % 400 == 0)

def daysInMonth (year month : Nat) : Nat :=
  if month = 2 then if isLeapYear year then 29 else 28
  else if month ∈ [4, 6, 9, 11] then 30 else 31

def isDate (year month day : Nat) : Bool :=
  decide (1 ≤ month ∧ month ≤ 12 ∧ 1 ≤ day ∧ day ≤ daysInMonth year month)

def isTime (hour minute second : Nat) : Bool := decide (hour ≤ 23 ∧ minute ≤ 59 ∧ second ≤ 59)

/-! ### Parts of a time -/

/-- The number of two digits at the front. -/
def twoDigits (s : Bytes) : Option (Nat × Bytes) :=
  match s with
  | a :: b :: rest =>
    if Ascii.isDigit a && Ascii.isDigit b then
      some (Ascii.digitValue a * 10 + Ascii.digitValue b, rest)
    else none
  | _ => none

/-- The letter that stands for no offset. -/
def zulu : UInt8 := 0x5A

/-- The offset at the end: the letter, or a sign with hours and minutes. -/
def isOffset (s : Bytes) : Bool :=
  s == [zulu] ||
    match s with
    | sign :: rest =>
      (sign == Ascii.plus || sign == Ascii.minus) &&
        match twoDigits rest with
        | some (hours, rest) =>
          match twoDigits rest with
          | some (minutes, []) => decide (hours ≤ 25 ∧ minutes ≤ 59)
          | _ => false
        | none => false
    | [] => false

/-- The seconds, which may be left out before the letter alone. -/
def seconds? (s : Bytes) : Option (Nat × Bytes) := if s = [zulu] then some (0, s) else twoDigits s

/-- A time in the short form.  Years from 50 on are of the last century. -/
def isShortTime (s : Bytes) : Bool :=
  let parts := do
    let (year, s) ← twoDigits s
    let (month, s) ← twoDigits s
    let (day, s) ← twoDigits s
    let (hour, s) ← twoDigits s
    let (minute, s) ← twoDigits s
    let (second, s) ← seconds? s
    return (year, month, day, hour, minute, second, s)
  match parts with
  | some (year, month, day, hour, minute, second, s) =>
    isDate (if 50 ≤ year then 1900 + year else 2000 + year) month day
      && isTime hour minute second && isOffset s
  | none => false

/-- A point and up to three digits, which may be left out. -/
def skipFraction (s : Bytes) : Option Bytes :=
  match s with
  | Ascii.dot :: rest =>
    if (rest.takeWhile Ascii.isDigit).length ≤ 3 then some (rest.dropWhile Ascii.isDigit) else none
  | _ => some s

/-- A time in the long form, which has no offset. -/
def isLongTime (s : Bytes) : Bool :=
  let parts := do
    let (century, s) ← twoDigits s
    let (year, s) ← twoDigits s
    let (month, s) ← twoDigits s
    let (day, s) ← twoDigits s
    let (hour, s) ← twoDigits s
    let (minute, s) ← twoDigits s
    let (second, s) ← seconds? s
    let s ← skipFraction s
    return (century * 100 + year, month, day, hour, minute, second, s)
  match parts with
  | some (year, month, day, hour, minute, second, s) =>
    isDate year month day && isTime hour minute second && s == [zulu]
  | none => false

/-! ### Reading -/

def shortTag : Nat := 23
def longTag : Nat := 24

/-- Passes over a time. -/
def readTime (s : Bytes) : Option Bytes := do
  let (e, rest) ← Element.read s
  if e.tag = shortTag ∧ isShortTime e.content then some rest
  else if e.tag = longTag ∧ isLongTime e.content then some rest
  else none

/-- Passes over a validity.  What follows the second time is not looked at. -/
def read (s : Bytes) : Option Bytes := do
  let (content, rest) ← Element.readSequence s
  let content ← readTime content
  let _ ← readTime content
  return rest

end Validity

end TrustStore.Certificate
