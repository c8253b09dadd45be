import TradeFlow.Value

/-!
Mappings with keys of any type.

Keys of different types are different. A key that is not a number is different even from itself, and
so is a point in time whose zone is not one of the whole hours from twelve west to fourteen east. A
list or a mapping cannot be compared at all.
-/

namespace TradeFlow.Yaml

/-- Whether a key can be compared with others. -/
def isComparable : Value → Bool
  | .strings _ => false
  | .list _ => false
  | .map _ => false
  | .keyed _ => false
  | _ => true

/-- Whether the zone of a point in time is a known one. -/
def hasKnownZone (t : Instant) : Bool :=
  t.offset % 60 == 0 && -12 * 60 ≤ t.offset && t.offset ≤ 14 * 60

/-- Whether two keys are the same. -/
def equalKeys : Value → Value → Bool
  | .float x, .float y => x.equal y
  | .instant s, .instant t => s = t && hasKnownZone s
  | a, b => a == b

/-- The place of a key among keys of other types. -/
def keyRank : Value → Nat
  | .null => 0
  | .bool _ => 1
  | .float _ => 2
  | .int _ => 3
  | .int64 _ => 4
  | .string _ => 5
  | .uint64 _ => 6
  | _ => 7

/-- Whether a key is shown before another one. What is not a number comes before all numbers. -/
def keyPrecedes (a b : Value) : Bool :=
  match a, b with
  | .bool x, .bool y => !x && y
  | .float x, .float y => x.lt y || (x = .nan && y ≠ .nan)
  | .int x, .int y => x < y
  | .int64 x, .int64 y => x < y
  | .string x, .string y => precedes x y
  | .uint64 x, .uint64 y => x < y
  | .instant s, .instant t =>
    s.nanosecond < t.nanosecond || (s.nanosecond = t.nanosecond && s.seconds < t.seconds)
  | a, b => keyRank a < keyRank b

/-- Puts a value under a key of any type, in place of what was there. -/
def insertKeyed (key value : Value) (entries : List (Value × Value)) : List (Value × Value) :=
  insertBy (fun p q => keyPrecedes p.1 q.1) (key, value)
    (entries.filter fun p => !equalKeys p.1 key)

end TradeFlow.Yaml
