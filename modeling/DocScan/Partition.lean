import DocScan.Validation.Check
import DocScan.Value.Elements

/-!
# Partitions

A partition is one part of a scan: the hosts that hold it and the range of
index keys it covers.  A range has a lower bound, which is included, an upper
bound, which is not, both or neither; a bound gives the fields of an index key
with their values, in the order of the index.
-/

namespace DocScan

/-- A bound: the fields of an index key with their values. -/
abbrev Bound := List (String × Value)

/-- The range of index keys of a partition. -/
structure KeyRange where
  lower : Option Bound
  upper : Option Bound
  deriving DecidableEq

namespace KeyRange

def unbounded : KeyRange := ⟨none, none⟩

/-- A bound that names at least one field. -/
def effective (bound : Option Bound) : Option Bound :=
  match bound with
  | some [] => none
  | other => other

def isBounded (r : KeyRange) : Bool := (effective r.lower).isSome || (effective r.upper).isSome

/-- The fields of the index that the bounds refer to: those of the lower
bound, or without one those of the upper. -/
def indexKey (r : KeyRange) : List String :=
  (((effective r.lower).or (effective r.upper)).getD []).map Prod.fst

def check (entries : List (Value × Value)) : Checked KeyRange :=
  match Checked.both (Check.withDefault "min_key" none Check.optionalNamedValues entries)
      (Check.withDefault "max_key" none Check.optionalNamedValues entries) with
  | .ok (lower, upper) => .ok ⟨lower, upper⟩
  | .error fs => .error fs

def checkValue : Value → Checked KeyRange
  | .dict entries => check entries
  | _ => .fail (.notRecord "PartitionRange")

end KeyRange

/-- One part of a scan. -/
structure Partition where
  index : Int
  hosts : List String
  range : KeyRange
  deriving DecidableEq

namespace Partition

/-- The checks of the hosts from an index on. -/
def checkHostsFrom (index : Nat) : List Value → List (Checked String)
  | [] => []
  | item :: rest =>
    Checked.atPlace (.number index) (Check.text item) :: checkHostsFrom (index + 1) rest

/-- The hosts, at least one.  Only hosts that passed count. -/
def checkHosts (v : Value) : Checked (List String) :=
  match v.items? with
  | none => .fail .notTuple
  | some items =>
    let checks := checkHostsFrom 0 items
    let hosts := Checked.all checks
    if Checked.passed checks = 0 then
      .error (hosts.faults ++ [⟨[], .noItems (Checked.passed checks)⟩])
    else hosts

def check (entries : List (Value × Value)) : Checked Partition :=
  match Checked.both (Check.withDefault "index" 0 Check.integer entries)
      (Checked.both (Check.required "hosts" checkHosts entries)
        (Check.withDefault "partition_range" KeyRange.unbounded KeyRange.checkValue entries)) with
  | .ok (index, hosts, range) => .ok ⟨index, hosts, range⟩
  | .error fs => .error fs

end Partition

/-- Why named arguments give no record. -/
inductive RecordError where
  | notKeywords (record : String) (value : Value)
  | keywordNotText
  | invalid (record : String) (faults : List Fault)
  deriving DecidableEq

def RecordError.message : RecordError → String
  | .notKeywords record v =>
    "mongo_pushdown.partition." ++ record ++ "() argument after ** must be a mapping, not "
      ++ v.kindName
  | .keywordNotText => "keywords must be strings"
  | .invalid record faults => faultCount faults record

def recordOfArguments {α : Type} (record : String)
    (check : List (Value × Value) → Checked α) (data : Value) : Except RecordError α :=
  match data with
  | .dict entries =>
    if entries.all fun entry => entry.1.kindName = "str" then
      match check entries with
      | .ok a => .ok a
      | .error fs => .error (.invalid record fs)
    else .error .keywordNotText
  | _ => .error (.notKeywords record data)

def KeyRange.ofArguments (data : Value) : Except RecordError KeyRange :=
  recordOfArguments "PartitionRange" KeyRange.check data

def Partition.ofArguments (data : Value) : Except RecordError Partition :=
  recordOfArguments "MongoPartition" Partition.check data

end DocScan
