import UsageCensus.Document.Amount
import UsageCensus.Text.Surrogates

/-!
# Keys and sets

What may be looked up or be in a set: all but lists, objects, sets and records. Two keys are the
same if they are equal texts, amounts, paths, dates or bytes, so that 1, 1.0 and true are one
key. A set has each member once, in ascending order if its members can be compared with each
other.
-/

namespace UsageCensus.Document

open UsageCensus.Files

def isKey : Document → Bool
  | list _ => false
  | object _ => false
  | set _ => false
  | record _ _ => false
  | _ => true

/-- The two are the same key. -/
def sameKey : Document → Document → Bool
  | null, null => true
  | string s, string t => s == t
  | path p, path q => p == q
  | date d, date e => d == e
  | bytes b, bytes c => b == c
  | a, b => match a.amount?, b.amount? with
    | some x, some y => x.eq y
    | _, _ => false

/-- The order of two keys of one kind; texts are in the order of their code points. -/
def le? (surrogates : Text.Surrogates) : Document → Document → Option Bool
  | string s, string t => some (surrogates.textLe s t)
  | path p, path q => some (Place.le p.parts q.parts)
  | date d, date e => some (d.le e)
  | bytes b, bytes c => some (!List.lex c b fun x y => decide (x < y))
  | a, b => match a.amount?, b.amount? with
    | some x, some y => some (!y.lt x)
    | _, _ => none

/-- Each of the members can be compared with each other one. -/
def areComparable : List Document → Bool
  | [] => true
  | [_] => true
  | first :: rest => rest.all fun member => (le? .none first member).isSome

def sortKeys (surrogates : Text.Surrogates) (members : List Document) : List Document :=
  members.mergeSort fun a b => (le? surrogates a b).getD true

/-- The set of the members, which must be keys. -/
def ofElements (surrogates : Text.Surrogates) (members : List Document) : Except Fault Document :=
  if members.all isKey then
    let distinct := members.eraseDupsBy sameKey
    .ok (set (if areComparable distinct then sortKeys surrogates distinct else distinct))
  else .error .wrongKind

end UsageCensus.Document
