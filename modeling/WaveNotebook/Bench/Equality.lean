import WaveNotebook.Bench.Basic

/-!
# Equal data

Data of different types are different. Matrices, metrics, sweeps and tuples are
compared by what they hold, signals by their place alone, and modes by the places
of their signals. Inside of lists and records numbers and truth values are
compared as numbers, and what lies at one place is equal to itself.
-/

namespace WaveNotebook.Bench

/-- What a number or a truth value counts as; an integer beyond the doubles is infinite. -/
def numberOf? : Datum → Option Float
  | .number x => some x
  | .integer n => some ((Binary64.ofInt? n).getD Binary64.infinity)
  | .bool b => some (if b then 1.0 else 0.0)
  | _ => none

/-- Whether arrays are equal as truth values. -/
def sameArrays (shape : List Nat) (cells : List Float) (shape' : List Nat) (cells' : List Float) :
    Except Fault Bool :=
  if shape = shape' then
    (Datum.truthOfArray (List.zipWith (· == ·) cells cells')).mapError Fault.numeric
  else .error (.numeric (.shape (.apart shape shape')))

mutual

/-- Whether two data are equal, given when two things are. -/
def same (sameThings : Label → Label → Except Fault Bool) :
    Datum → Datum → Except Fault Bool
  | .null, .null => .ok true
  | .text s, .text t => .ok (s == t)
  | .list xs, .list ys => if xs.length = ys.length then sameItems sameThings xs ys else .ok false
  | .record fs, .record gs =>
    if fs.length = gs.length then sameFields sameThings fs gs else .ok false
  | .array shape cells, .array shape' cells' => sameArrays shape cells shape' cells'
  | .object l, .object m => sameThings l m
  | d, e =>
    match numberOf? d, numberOf? e with
    | some x, some y => .ok (x == y)
    | _, _ => .ok false

def sameItems (sameThings : Label → Label → Except Fault Bool) :
    List Datum → List Datum → Except Fault Bool
  | d :: ds, e :: es => do
    if ← same sameThings d e then sameItems sameThings ds es else return false
  | _, _ => .ok true

def sameFields (sameThings : Label → Label → Except Fault Bool) :
    List (String × Datum) → List (String × Datum) → Except Fault Bool
  | [], _ => .ok true
  | f :: fs, gs =>
    match gs.lookup f.1 with
    | none => .ok false
    | some e => do
      if ← same sameThings f.2 e then sameFields sameThings fs gs else return false

end

def sameSweeps (s t : Sweep) : Bool :=
  s.start == t.start && s.stop == t.stop && s.duration == t.duration && s.method == t.method &&
    s.rate == t.rate

variable (b : Bench)

/-- Whether two things are equal, of which the first lies below a given place. -/
def sameThingsBelow : Nat → Label → Label → Except Fault Bool
  | 0, _, _ => .ok false
  | bound + 1, l, m =>
    if l.place.isSome && l.place == m.place then .ok true
    else
      match b.thing? l, b.thing? m with
      | some (.matrix h), some (.matrix k) =>
        .ok ((b.session.store.grid h).beq (b.session.store.grid k))
      | some (.modes ss), some (.modes ts) =>
        same (sameThingsBelow bound) (.list ss) (.list ts)
      | some (.metrics vs), some (.metrics ws) =>
        same (sameThingsBelow bound) (.record vs) (.record ws)
      | some (.tuple xs), some (.tuple ys) => same (sameThingsBelow bound) (.list xs) (.list ys)
      | some (.sweep s), some (.sweep t) => .ok (sameSweeps s t)
      | some (.kind k), some (.kind k') => .ok (k == k')
      | _, _ => .ok false

/-- Whether two data are equal. A thing is made of earlier ones, so that as many steps as there
are things suffice. -/
def equal (d e : Datum) : Except Fault Bool :=
  if d.typeName == e.typeName then same (b.sameThingsBelow b.things.size) d e else .ok false

end WaveNotebook.Bench
