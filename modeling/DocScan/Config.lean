import DocScan.Mapping
import DocScan.Query.Compilation
import DocScan.Validation.Check

/-!
# Reader configuration

Where a reader connects to, and how: the database and collection, the users
to authenticate as, the field that identifies documents, the size of batches,
two timeouts, and options for the client.  Host addresses come with each
partition.  Only the eight named fields are accepted.
-/

namespace DocScan

/-- A user who authenticates against a database. -/
structure Credentials where
  user : String
  database : String
  password : String
  deriving DecidableEq

def Credentials.display (c : Credentials) : String :=
  "MongoCredentials(user=" ++ Text.quoted c.user ++ ", database=" ++ Text.quoted c.database ++ ")"

/-- A checked configuration. -/
structure Config where
  database : String
  collection : String
  credentials : List Credentials
  idField : String
  batchSize : Option Int
  serverSelectionTimeout : Int
  connectTimeout : Int
  clientOptions : List (String × Value)
  deriving DecidableEq

namespace Credentials

def check : Value → Checked Credentials
  | .dict entries =>
    match Checked.both (Check.required "user" Check.text entries)
        (Checked.both (Check.required "database" Check.text entries)
          (Check.required "password" Check.text entries)) with
    | .ok (user, database, password) => .ok ⟨user, database, password⟩
    | .error fs => .error fs
  | _ => .fail (.notRecord "MongoCredentials")

/-- A user, database and password in a row, as credentials given by name.
Anything but a list or tuple is left as it is. -/
def named (item : Value) : Except Mismatch Value :=
  match item.items? with
  | some [user, database, password] =>
    .ok (.dict [(.text "user", user), (.text "database", database), (.text "password", password)])
  | some items => .error (if items.length < 3 then .shorter else .longer)
  | none => .ok item

/-- The checks of the credentials from an index on. -/
def checkFrom (index : Nat) : List Value → List (Checked Credentials)
  | [] => []
  | item :: rest => Checked.atPlace (.number index) (check item) :: checkFrom (index + 1) rest

def checkAll (items : List Value) : Checked (List Credentials) :=
  match items.mapM named with
  | .ok records => Checked.all (checkFrom 0 records)
  | .error mismatch => .fail (.itemCount mismatch)

end Credentials

/-- Why a value gives no configuration.  Faults of named arguments are reported
as they are, those of a mapping as ones of the configuration. -/
inductive ConfigError where
  | mapping (e : MappingError)
  | notKeywords (value : Value)
  | keywordNotText
  | credentials (value : Value)
  | invalid (faults : List Fault)
  | rejected (faults : List Fault)
  deriving DecidableEq

namespace ConfigError

def message : ConfigError → String
  | .mapping e => e.message
  | .notKeywords v =>
    "mongo_pushdown.config.MongoReaderConfig() argument after ** must be a mapping, not "
      ++ v.kindName
  | .keywordNotText => "keywords must be strings"
  | .credentials v => "'" ++ v.kindName ++ "' object is not iterable"
  | .invalid faults => faultCount faults "MongoReaderConfig"
  | .rejected faults =>
    "Invalid reader configuration: " ++ faultCount faults "MongoReaderConfig"

end ConfigError

namespace Config

def fieldNames : List String :=
  ["database", "collection", "credentials", "id_field", "batch_size",
    "server_selection_timeout_ms", "connect_timeout_ms", "client_options"]

/-- The faults of keys that name no field. -/
def strayKeys (entries : List (Value × Value)) : List Fault :=
  entries.filterMap fun entry =>
    match entry.1 with
    | .text name => if fieldNames.contains name then none else some ⟨[.name name], .unknownKey⟩
    | key => some ⟨[Check.keyPlace key], .keyNotText⟩

/-- The elements of what is given as credentials; null stands for none. -/
def credentialItems (entries : List (Value × Value)) : Except ConfigError (List Value) :=
  match Value.lookup? "credentials" entries with
  | none | some .null => .ok []
  | some value =>
    match value.elements? with
    | some items => .ok items
    | none => .error (.credentials value)

/-- All fields but the keys that name none, with the credentials' elements
taken out. -/
def checkFields (credentials : List Value) (entries : List (Value × Value)) : Checked Config :=
  let timeout := fun name (default : Int) => Check.withDefault name default Check.positive entries
  match
    Checked.both (Check.required "database" Check.nonemptyText entries)
    (Checked.both (Check.required "collection" Check.nonemptyText entries)
    (Checked.both (Checked.atPlace (.name "credentials") (Credentials.checkAll credentials))
    (Checked.both (Check.withDefault "id_field" defaultIdField Check.text entries)
    (Checked.both (Check.withDefault "batch_size" none Check.optionalPositive entries)
    (Checked.both (timeout "server_selection_timeout_ms" 5000)
    (Checked.both (timeout "connect_timeout_ms" 10000)
      (Check.withDefault "client_options" [] Check.namedValues entries))))))) with
  | .ok (database, collection, credentials, idField, batchSize, selection, connect, options) =>
    .ok ⟨database, collection, credentials, idField, batchSize, selection, connect, options⟩
  | .error fs => .error fs

/-- The configuration that a dictionary's entries give.  Credentials that have
no elements at all stop the check at once. -/
def ofEntries (entries : List (Value × Value)) : Except ConfigError Config :=
  match credentialItems entries with
  | .error e => .error e
  | .ok items =>
    match Checked.both (checkFields items entries)
        (match strayKeys entries with
          | [] => .ok ()
          | fs => .error fs) with
    | .ok (config, ()) => .ok config
    | .error fs => .error (.invalid fs)

def ofMapping (data : Value) : Except ConfigError Config :=
  match data.toEntries with
  | .error e => .error (.mapping e)
  | .ok entries =>
    match ofEntries entries with
    | .ok config => .ok config
    | .error (.invalid faults) => .error (.rejected faults)
    | .error e => .error e

def ofArguments (data : Value) : Except ConfigError Config :=
  match data with
  | .dict entries =>
    if entries.all fun entry => entry.1.kindName = "str" then ofEntries entries
    else .error .keywordNotText
  | _ => .error (.notKeywords data)

end Config

end DocScan
