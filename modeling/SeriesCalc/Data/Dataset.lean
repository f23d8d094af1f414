import SeriesCalc.Data.Error
import SeriesCalc.Value.Categories
import SeriesCalc.Value.Word

/-!
# Datasets

A dataset has `nobs` observations, an active sample `t1..t2` (0-based, inclusive), a shape
(cross-section, time series with a frequency and a start year, or a panel of units × periods),
optional observation markers, and named series of `nobs` values each. Series `0` is the
constant `const`, all ones, and cannot be written, renamed or deleted.

The epoch counts changes that invalidate what statements remember about series positions
(resize, rename, delete); `modified` records any change since the last `clearModified`.

* `Dataset.obsLabel`: the marker of an observation, else `t+1`, `year`, `year:sub` or
  `unit:period`.
* `Dataset.lagSource`: the observation `offset` steps away, within the dataset and, for a
  panel, within the same unit.

Observation numbers, counts and shapes are 64-bit words (`Word`): the product `units ×
periods` a panel is checked against, and the `+ 1` of a label, wrap around; a year is a
signed 64-bit number.
-/

namespace SeriesCalc

/-- How observations are arranged. -/
inductive DataShape where
  | cross
  | time (pd : Nat) (start : Int)
  | panel (units periods : Nat)
deriving DecidableEq, BEq, Inhabited, Repr

/-- Debug text of a shape: `CrossSection`, `TimeSeries { pd: 4, start: 1990 }`, ... -/
def DataShape.debugText : DataShape → String
  | .cross => "CrossSection"
  | .time pd start => s!"TimeSeries \x7b pd: {pd}, start: {start} \x7d"
  | .panel u p => s!"Panel \x7b units: {u}, periods: {p} \x7d"

/-- A named series with its values and, for a string-valued series, its labels. -/
structure Series where
  name : String
  values : Array Float
  categories : Option Categories := none
deriving Inhabited

/-- The index from series names to positions that a delete rebuilds: each series in turn,
under its position when that fits an id. -/
def Series.nameIndex (ss : Array Series) : Std.TreeMap String Nat :=
  ss.toList.zipIdx.foldl (fun m (s, i) => if i < idLimit then m.insert s.name i else m) ∅

/-- Observations, sample, shape, markers, series and the index from series names to positions.
A dataset written out by its series has the index a delete would rebuild. -/
structure Dataset where
  nobs : Nat
  t1 : Nat := 0
  t2 : Nat
  shape : DataShape := .cross
  series : Array Series
  index : Std.TreeMap String Nat := Series.nameIndex series
  markers : Option (Array String) := none
  epoch : Nat := 0
  modified : Bool := false
deriving Inhabited

namespace Dataset

/-- `nobs` observations, full sample, only the constant series. -/
def create (nobs : Nat) : Dataset :=
  { nobs, t2 := nobs - 1, series := #[{ name := "const", values := Array.replicate nobs 1 }],
    index := (∅ : Std.TreeMap String Nat).insert "const" 0 }

/-- Change the shape; a panel must cover every observation, a frequency must be positive. -/
def setShape (ds : Dataset) (s : DataShape) : Except DataError Dataset :=
  match s with
  | .panel u p =>
    if Word.mul u p != ds.nobs then .error (.badStructure s!"{u} units x {p} periods != {ds.nobs} observations")
    else .ok { ds with shape := s }
  | .time 0 _ => .error (.badStructure "frequency must be positive")
  | _ => .ok { ds with shape := s }

def withShape (nobs : Nat) (s : DataShape) : Except DataError Dataset :=
  (create nobs).setShape s

/-- Number of observations in the sample (`0` for an empty dataset). -/
def sampleLen (ds : Dataset) : Nat := if ds.nobs == 0 then 0 else ds.t2 - ds.t1 + 1

def setSample (ds : Dataset) (t1 t2 : Nat) : Except DataError Dataset :=
  if t1 > t2 || t2 ≥ ds.nobs then .error (.badSample t1 t2 ds.nobs)
  else .ok { ds with t1, t2 }

def fullSample (ds : Dataset) : Dataset := { ds with t1 := 0, t2 := ds.nobs - 1 }

/-- A change that invalidates remembered positions. -/
def bump (ds : Dataset) : Dataset := { ds with epoch := ds.epoch + 1, modified := true }

/-- Change the number of observations: new values are NA (ones for `const`), new markers
are `t+1`; the sample becomes the full range. A panel cannot be resized. -/
def resize (ds : Dataset) (n : Nat) : Except DataError Dataset :=
  match ds.shape with
  | .panel .. => .error (.badStructure "cannot resize a panel dataset")
  | _ =>
    let fitTo := fun (xs : Array Float) (fill : Float) =>
      if n ≤ xs.size then xs.extract 0 n else xs ++ Array.replicate (n - xs.size) fill
    let series := ds.series.mapIdx fun i s => { s with values := fitTo s.values (if i == 0 then 1 else 0 / 0) }
    let markers := ds.markers.map fun ms =>
      if n ≤ ms.size then ms.extract 0 n
      else ms ++ ((List.range (n - ms.size)).map fun j => toString (ms.size + j + 1)).toArray
    .ok ({ ds with nobs := n, series, markers } |>.fullSample |>.bump)

/-- The position of a series, as the index gives it. -/
def lookup (ds : Dataset) (name : String) : Option Nat := ds.index[name]?

def get? (ds : Dataset) (id : Nat) : Option Series := ds.series[id]?

/-- Add a series at the end and index it; its position must fit an id. -/
def addSeries (ds : Dataset) (name : String) (values : Array Float) : Except DataError (Dataset × Nat) :=
  if !isValidName name then .error (.invalidName name)
  else if ds.index.contains name then .error (.duplicateName name)
  else if values.size != ds.nobs then .error (.lengthMismatch ds.nobs values.size)
  else if idLimit ≤ ds.series.size then .error (.badStructure "too many series")
  else
    let id := ds.series.size
    .ok ({ ds with series := ds.series.push { name, values }, index := ds.index.insert name id,
                   modified := true }, id)

/-- Change a writable series; the dataset counts as modified. -/
def modifySeries (ds : Dataset) (id : Nat) (f : Series → Series) : Except DataError Dataset :=
  if id == 0 then .error .constSeries
  else match ds.series[id]? with
    | none => .error (.unknownSeries (toString id))
    | some s => .ok { ds with series := ds.series.set! id (f s), modified := true }

/-- Rename a series: the old name leaves the index, the series takes the new name, and the new
name is indexed to it. -/
def renameSeries (ds : Dataset) (id : Nat) (name : String) : Except DataError Dataset :=
  if id == 0 then .error .constSeries
  else if !isValidName name then .error (.invalidName name)
  else if ds.index.contains name then .error (.duplicateName name)
  else match ds.series[id]? with
    | none => .error (.unknownSeries (toString id))
    | some s =>
      .ok ({ ds with series := ds.series.set! id { s with name },
                     index := (ds.index.erase s.name).insert name id }.bump)

/-- Delete a series; later series move down one position, and the index is rebuilt. -/
def deleteSeries (ds : Dataset) (id : Nat) : Except DataError Dataset :=
  if id == 0 then .error .constSeries
  else if id ≥ ds.series.size then .error (.unknownSeries (toString id))
  else
    let series := ds.series.eraseIdx! id
    .ok ({ ds with series, index := Series.nameIndex series }.bump)

def setCategories (ds : Dataset) (id : Nat) (t : Option Categories) : Except DataError Dataset :=
  ds.modifySeries id fun s => { s with categories := t }

def setMarkers (ds : Dataset) (ms : Array String) : Except DataError Dataset :=
  if ms.size != ds.nobs then .error (.lengthMismatch ds.nobs ms.size)
  else .ok { ds with markers := some ms }

/-- A number written with at least two digits. -/
def twoDigits (n : Nat) : String := if n < 10 then "0" ++ toString n else toString n

/-- The label of observation `t`. -/
def obsLabel (ds : Dataset) (t : Nat) : String :=
  match ds.markers.bind (·[t]?) with
  | some m => m
  | none =>
    match ds.shape with
    | .cross => toString (Word.add t 1)
    | .time pd start =>
      let year := Word.wrapSigned (start + Word.signed (t / pd))
      let sub := t % pd + 1
      if pd == 1 then toString year
      else if pd ≤ 9 then s!"{year}:{sub}"
      else toString year ++ ":" ++ twoDigits sub
    | .panel _ p => s!"{Word.add (t / p) 1}:{t % p + 1}"

/-- Whether the label of `t` would be computed from a panel of zero periods, which has no
periods to count `t` in: such a panel has no observations, and its labels are undefined. -/
def labelUndefined (ds : Dataset) (t : Nat) : Bool :=
  (ds.markers.bind (·[t]?)).isNone &&
    match ds.shape with
    | .panel _ p => p == 0
    | _ => false

/-- The observation with a label: a marker first, then a computed label. -/
def findObs (ds : Dataset) (label : String) : Option Nat :=
  match ds.markers.bind (·.findIdx? (· == label)) with
  | some t => some t
  | none => (List.range ds.nobs).find? (ds.obsLabel · == label)

/-- The observation `offset` steps from `t`, if it exists (in the same unit of a panel). The
step is taken in signed 64-bit arithmetic: an observation number or a sum outside that range
has no source. -/
def lagSource (ds : Dataset) (t : Nat) (offset : Int) : Option Nat :=
  let src := (t : Int) + offset
  if !Word.fitsSigned t || !Word.fitsSigned src then none
  else if src < 0 || src ≥ ds.nobs then none
  else
    let s := src.toNat
    match ds.shape with
    | .panel _ p => if p == 0 || s / p != t / p then none else some s
    | _ => some s

end Dataset

end SeriesCalc
