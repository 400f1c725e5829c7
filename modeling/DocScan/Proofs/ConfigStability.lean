import DocScan.Config
import DocScan.Proofs.CheckResults

/-!
# Checked configurations are stable

A setting can be spelt in several ways, and the check of it gives one of them, which it
accepts again and gives back.  So a configuration is accepted as a mapping of its own
fields, with its credentials as triples, and comes out as it is.
-/

namespace DocScan

/-- A value stands for a text: the text itself or its bytes in UTF-8. -/
def Value.IsText (v : Value) (s : String) : Prop :=
  v = .text s ∨ v = .bytes s.toUTF8.data.toList

/-! ## Single settings -/

namespace Check

variable {v : Value} {s : String} {n : ℤ}

theorem decodeText?_eq_some_iff {bytes : List UInt8} :
    decodeText? bytes = some s ↔ bytes = s.toUTF8.data.toList := by
  unfold decodeText? String.fromUTF8?
  constructor
  · intro h
    split at h
    · cases h
      rfl
    · contradiction
  · rintro rfl
    exact dif_pos s.isValidUTF8

theorem text_eq_ok_iff : text v = .ok s ↔ v.IsText s := by
  cases v with
  | text found => simp [text, Value.IsText]
  | bytes found =>
    simp only [text, Value.IsText, Value.bytes.injEq, ← decodeText?_eq_some_iff]
    cases decodeText? found <;> simp [Checked.fail]
  | _ => simp [text, Value.IsText, Checked.fail]

theorem nonemptyText_eq_ok_iff : nonemptyText v = .ok s ↔ v.IsText s ∧ s ≠ "" := by
  rw [← text_eq_ok_iff, nonemptyText]
  cases text v with
  | error faults => simp
  | ok found =>
    by_cases hempty : found = ""
    · simp only [hempty, if_true, Checked.fail, reduceCtorEq, Except.ok.injEq, false_iff]
      rintro ⟨rfl, hne⟩
      exact hne rfl
    · simp only [hempty, if_false, Except.ok.injEq]
      constructor
      · rintro rfl
        exact ⟨rfl, hempty⟩
      · exact And.left

theorem positive_eq_ok_iff : positive v = .ok n ↔ integer v = .ok n ∧ 1 ≤ n := by
  rw [positive]
  cases integer v with
  | error faults => simp
  | ok found =>
    by_cases hpositive : 0 < found
    · simp only [hpositive, if_true, Except.ok.injEq]
      constructor
      · rintro rfl
        exact ⟨rfl, hpositive⟩
      · exact And.left
    · simp only [hpositive, if_false, Checked.fail, reduceCtorEq, Except.ok.injEq, false_iff]
      rintro ⟨rfl, hle⟩
      exact hpositive hle

theorem positive_int (h : 1 ≤ n) : positive (.int n) = .ok n :=
  positive_eq_ok_iff.mpr ⟨rfl, h⟩

theorem gives_optionalPositive (v : Value) :
    (optionalPositive v).Gives fun given => ∀ n ∈ given, 1 ≤ n := by
  unfold optionalPositive
  split
  · exact Checked.gives_ok.mpr (by simp)
  · split
    · rename_i n hn
      have hle := (positive_eq_ok_iff.mp hn).2
      exact Checked.gives_ok.mpr (by simpa using hle)
    · exact Checked.gives_error _

/-- An integer or null. -/
def optionalInteger (given : Option ℤ) : Value := (given.map Value.int).getD .null

theorem optionalPositive_optionalInteger {given : Option ℤ} (h : ∀ n ∈ given, 1 ≤ n) :
    optionalPositive (optionalInteger given) = .ok given := by
  cases given with
  | none => rfl
  | some n =>
    have hpositive := positive_int (h n rfl)
    simp [optionalInteger, optionalPositive, hpositive]

/-- A dictionary with texts as keys. -/
def namedDictionary (entries : List (String × Value)) : Value :=
  .dict (entries.map fun entry => (.text entry.1, entry.2))

theorem namedValues_namedDictionary {entries : List (String × Value)}
    (h : HasDistinctNames entries) : namedValues (namedDictionary entries) = .ok entries := by
  have hkeys : Checked.all (entries.map fun entry => key (.text entry.1)) =
      .ok (entries.map Prod.fst) := by
    rw [Checked.all_eq_ok_iff, List.forall₂_map_left_iff, List.forall₂_map_right_iff,
      List.forall₂_same]
    exact fun _ _ => rfl
  have hzip : (entries.map Prod.fst).zip (entries.map Prod.snd) = entries := by
    rw [List.zip_map']
    exact List.map_id entries
  have hset : entries.foldl (fun acc entry => setNamed entry.1 entry.2 acc) [] = entries :=
    foldl_setNamed_of_distinct (List.nil_append entries ▸ h)
  simp [namedValues, namedDictionary, Function.comp_def, hkeys, hzip, hset]

end Check

/-! ## Credentials -/

/-- A value stands for the credentials of a user: a user, database and password in a row,
or a dictionary that has them under their names. -/
inductive Credentials.GivenBy : Value → Credentials → Prop where
  | row {item user database password : Value} {c : Credentials}
      (hitems : item.items? = some [user, database, password]) (huser : user.IsText c.user)
      (hdatabase : database.IsText c.database) (hpassword : password.IsText c.password) :
      GivenBy item c
  | named {entries : List (Value × Value)} {user database password : Value} {c : Credentials}
      (huser : Value.lookup? "user" entries = some user ∧ user.IsText c.user)
      (hdatabase : Value.lookup? "database" entries = some database ∧
        database.IsText c.database)
      (hpassword : Value.lookup? "password" entries = some password ∧
        password.IsText c.password) :
      GivenBy (.dict entries) c

/-- Credentials as a row of three texts. -/
def Credentials.IsRow (item : Value) (c : Credentials) : Prop :=
  item.items? = some [.text c.user, .text c.database, .text c.password]

namespace Credentials

variable {item : Value} {c : Credentials} {entries : List (Value × Value)}
  {items : List Value} {cs : List Credentials}

theorem check_eq_ok_iff :
    check (.dict entries) = .ok c ↔
      Check.required "user" Check.text entries = .ok c.user ∧
        Check.required "database" Check.text entries = .ok c.database ∧
        Check.required "password" Check.text entries = .ok c.password := by
  rw [← Checked.both_eq_ok_iff, ← Checked.both_eq_ok_iff, check]
  split
  · rename_i user database password hpass
    obtain ⟨user', database', password'⟩ := c
    simp [hpass]
  · rename_i faults hfails
    simp [hfails]

/-- The dictionary that a row of three values is made into. -/
def record (user database password : Value) : List (Value × Value) :=
  [(.text "user", user), (.text "database", database), (.text "password", password)]

theorem check_record_eq_ok_iff {user database password : Value} :
    check (.dict (record user database password)) = .ok c ↔
      user.IsText c.user ∧ database.IsText c.database ∧ password.IsText c.password := by
  simp [check_eq_ok_iff, Check.required_eq_ok_iff, record, Value.lookup?, Check.text_eq_ok_iff]

theorem givenBy_of_check {checked : Value} (hnamed : named item = .ok checked)
    (hcheck : check checked = .ok c) : GivenBy item c := by
  unfold named at hnamed
  split at hnamed
  · rename_i user database password hitems
    cases hnamed
    obtain ⟨huser, hdatabase, hpassword⟩ := check_record_eq_ok_iff.mp hcheck
    exact .row hitems huser hdatabase hpassword
  · contradiction
  · cases hnamed
    cases item with
    | dict entries =>
      simp only [check_eq_ok_iff, Check.required_eq_ok_iff, Check.text_eq_ok_iff] at hcheck
      obtain ⟨⟨user, huser⟩, ⟨database, hdatabase⟩, password, hpassword⟩ := hcheck
      exact .named huser hdatabase hpassword
    | _ => contradiction

theorem check_of_isRow (h : IsRow item c) :
    ∃ checked, named item = .ok checked ∧ check checked = .ok c := by
  refine ⟨.dict (record (.text c.user) (.text c.database) (.text c.password)), ?_, ?_⟩
  · unfold IsRow at h
    simp only [named, h, record]
  · exact check_record_eq_ok_iff.mpr ⟨.inl rfl, .inl rfl, .inl rfl⟩

theorem checkFrom_eq_ok_iff {index : ℕ} {records : List Value} :
    Checked.all (checkFrom index records) = .ok cs ↔
      List.Forall₂ (fun checked c => check checked = .ok c) records cs := by
  rw [Checked.all_eq_ok_iff]
  induction records generalizing index cs with
  | nil => simp [checkFrom]
  | cons checked rest ih =>
    cases cs with
    | nil => simp [checkFrom]
    | cons c cs => simp [checkFrom, ih]

theorem mapM_named_eq_ok_iff {records : List Value} :
    items.mapM named = .ok records ↔
      List.Forall₂ (fun item checked => named item = .ok checked) items records := by
  induction items generalizing records with
  | nil => simp [pure, Except.pure, eq_comm]
  | cons item rest ih =>
    rw [List.mapM_cons]
    cases records with
    | nil =>
      cases named item <;> cases rest.mapM named <;> simp [bind, Except.bind, pure, Except.pure]
    | cons checked records =>
      rw [List.forall₂_cons, ← ih]
      cases named item <;> cases rest.mapM named <;> simp [bind, Except.bind, pure, Except.pure]

/-- The items are checked one by one, each in the form that names its texts. -/
theorem checkAll_eq_ok_iff :
    checkAll items = .ok cs ↔
      List.Forall₂ (fun item c => ∃ checked, named item = .ok checked ∧ check checked = .ok c)
        items cs := by
  have hsplit : checkAll items = .ok cs ↔ ∃ records, items.mapM named = .ok records ∧
      Checked.all (checkFrom 0 records) = .ok cs := by
    unfold checkAll
    cases items.mapM named <;> simp [Checked.fail]
  simp only [hsplit, mapM_named_eq_ok_iff, checkFrom_eq_ok_iff]
  clear hsplit
  induction items generalizing cs with
  | nil => simp
  | cons item rest ih =>
    cases cs with
    | nil => simp
    | cons c cs =>
      rw [List.forall₂_cons]
      constructor
      · rintro ⟨records, hnamed, hcheck⟩
        obtain ⟨checked, others, hfirst, hothers, rfl⟩ := List.forall₂_cons_left_iff.mp hnamed
        rw [List.forall₂_cons] at hcheck
        exact ⟨⟨checked, hfirst, hcheck.1⟩, ih.mp ⟨others, hothers, hcheck.2⟩⟩
      · rintro ⟨⟨checked, hfirst, hcheck⟩, hrest⟩
        obtain ⟨others, hothers, hcs⟩ := ih.mpr hrest
        exact ⟨checked :: others, .cons hfirst hothers, .cons hcheck hcs⟩

theorem givenBy_of_checkAll (h : checkAll items = .ok cs) : List.Forall₂ GivenBy items cs := by
  refine (checkAll_eq_ok_iff.mp h).imp ?_
  rintro item c ⟨checked, hnamed, hcheck⟩
  exact givenBy_of_check hnamed hcheck

theorem checkAll_of_rows (h : List.Forall₂ IsRow items cs) : checkAll items = .ok cs :=
  checkAll_eq_ok_iff.mpr (h.imp fun _ _ => check_of_isRow)

end Credentials

/-! ## Whole configurations -/

namespace Config

variable {entries : List (Value × Value)} {items : List Value} {config : Config} {data : Value}

/-- What each field gives. -/
structure FieldsGive (items : List Value) (entries : List (Value × Value)) (config : Config) :
    Prop where
  database : Check.required "database" Check.nonemptyText entries = .ok config.database
  collection : Check.required "collection" Check.nonemptyText entries = .ok config.collection
  credentials : Credentials.checkAll items = .ok config.credentials
  idField : Check.withDefault "id_field" defaultIdField Check.text entries = .ok config.idField
  batchSize :
    Check.withDefault "batch_size" none Check.optionalPositive entries = .ok config.batchSize
  serverSelectionTimeout : Check.withDefault "server_selection_timeout_ms" 5000 Check.positive
    entries = .ok config.serverSelectionTimeout
  connectTimeout : Check.withDefault "connect_timeout_ms" 10000 Check.positive entries =
    .ok config.connectTimeout
  clientOptions : Check.withDefault "client_options" [] Check.namedValues entries =
    .ok config.clientOptions

theorem checkFields_eq_ok_iff :
    checkFields items entries = .ok config ↔ FieldsGive items entries config := by
  unfold checkFields
  simp only
  constructor
  · intro h
    split at h
    · rename_i hpass
      cases h
      simp only [Checked.both_eq_ok_iff, Checked.atPlace_eq_ok_iff] at hpass
      obtain ⟨hdatabase, hcollection, hcredentials, hidField, hbatchSize, hselection, hconnect,
        hoptions⟩ := hpass
      exact ⟨hdatabase, hcollection, hcredentials, hidField, hbatchSize, hselection, hconnect,
        hoptions⟩
    · contradiction
  · intro h
    simp only [h.database, h.collection, h.credentials, h.idField, h.batchSize,
      h.serverSelectionTimeout, h.connectTimeout, h.clientOptions, Checked.both, Checked.atPlace]

/-- What is given as credentials, element by element; null stands for none. -/
inductive HasCredentials (entries : List (Value × Value)) : List Value → Prop where
  | absent (h : Value.lookup? "credentials" entries = none) : HasCredentials entries []
  | null (h : Value.lookup? "credentials" entries = some .null) : HasCredentials entries []
  | given {value : Value} {items : List Value}
      (h : Value.lookup? "credentials" entries = some value)
      (hitems : value.elements? = some items) : HasCredentials entries items

theorem credentialItems_eq_ok_iff :
    credentialItems entries = .ok items ↔ HasCredentials entries items := by
  constructor
  · intro h
    unfold credentialItems at h
    split at h
    · rename_i hlookup
      cases h
      exact .absent hlookup
    · rename_i hlookup
      cases h
      exact .null hlookup
    · rename_i value _ hlookup
      split at h
      · rename_i helements
        cases h
        exact .given hlookup helements
      · contradiction
  · intro h
    cases h with
    | absent hlookup => simp only [credentialItems, hlookup]
    | null hlookup => simp only [credentialItems, hlookup]
    | @given value _ hlookup hitems =>
      have hnull : value ≠ .null := by
        rintro rfl
        contradiction
      simp [credentialItems, hlookup, hitems]

theorem strayKeys_eq_nil_iff :
    strayKeys entries = [] ↔ ∀ entry ∈ entries, ∃ name ∈ fieldNames, entry.1 = .text name := by
  unfold strayKeys
  rw [List.filterMap_eq_nil_iff]
  refine forall₂_congr fun entry _ => ?_
  cases entry.1 with
  | text name => simp
  | _ => simp

theorem ofEntries_eq_ok_iff :
    ofEntries entries = .ok config ↔
      ∃ items, HasCredentials entries items ∧ FieldsGive items entries config ∧
        ∀ entry ∈ entries, ∃ name ∈ fieldNames, entry.1 = .text name := by
  simp only [← credentialItems_eq_ok_iff, ← checkFields_eq_ok_iff, ← strayKeys_eq_nil_iff]
  unfold ofEntries
  cases credentialItems entries with
  | error e => simp
  | ok items =>
    simp only [Except.ok.injEq, exists_eq_left']
    cases checkFields items entries <;> cases strayKeys entries <;> simp [Checked.both]

theorem ofMapping_eq_ok_iff :
    ofMapping data = .ok config ↔
      ∃ entries, data.toEntries = .ok entries ∧ ofEntries entries = .ok config := by
  unfold ofMapping
  cases data.toEntries with
  | error e => simp
  | ok entries =>
    cases hentries : ofEntries entries with
    | ok checked => simp [hentries]
    | error e => cases e <;> simp [hentries]

/-! ## Normal configurations -/

/-- What is known of a configuration that was checked. -/
structure IsNormal (config : Config) : Prop where
  database : config.database ≠ ""
  collection : config.collection ≠ ""
  batchSize : ∀ n ∈ config.batchSize, 1 ≤ n
  serverSelectionTimeout : 1 ≤ config.serverSelectionTimeout
  connectTimeout : 1 ≤ config.connectTimeout
  clientOptions : Check.HasDistinctNames config.clientOptions

theorem FieldsGive.isNormal (h : FieldsGive items entries config) : config.IsNormal := by
  obtain ⟨database, -, hdatabase⟩ := Check.required_eq_ok_iff.mp h.database
  obtain ⟨collection, -, hcollection⟩ := Check.required_eq_ok_iff.mp h.collection
  have hpositive (v : Value) : (Check.positive v).Gives fun n => 1 ≤ n :=
    fun _ hn => (Check.positive_eq_ok_iff.mp hn).2
  have hnil : Check.HasDistinctNames [] := List.nodup_nil
  constructor
  · exact (Check.nonemptyText_eq_ok_iff.mp hdatabase).2
  · exact (Check.nonemptyText_eq_ok_iff.mp hcollection).2
  · exact Check.gives_withDefault (by simp) Check.gives_optionalPositive entries _ h.batchSize
  · exact Check.gives_withDefault (by decide) hpositive entries _ h.serverSelectionTimeout
  · exact Check.gives_withDefault (by decide) hpositive entries _ h.connectTimeout
  · exact Check.gives_withDefault hnil Check.gives_namedValues entries _ h.clientOptions

/-- The fields of a configuration as a mapping, with a value for its credentials. -/
def fields (config : Config) (credentials : Value) : List (Value × Value) :=
  [(.text "database", .text config.database), (.text "collection", .text config.collection),
    (.text "credentials", credentials), (.text "id_field", .text config.idField),
    (.text "batch_size", Check.optionalInteger config.batchSize),
    (.text "server_selection_timeout_ms", .int config.serverSelectionTimeout),
    (.text "connect_timeout_ms", .int config.connectTimeout),
    (.text "client_options", Check.namedDictionary config.clientOptions)]

theorem IsNormal.fieldsGive (h : config.IsNormal) {credentials : Value}
    (hitems : List.Forall₂ Credentials.IsRow items config.credentials) :
    FieldsGive items (config.fields credentials) config := by
  have htext (s : String) : Check.text (.text s) = .ok s := rfl
  have hdatabase : Check.nonemptyText (.text config.database) = .ok config.database :=
    Check.nonemptyText_eq_ok_iff.mpr ⟨.inl rfl, h.database⟩
  have hcollection : Check.nonemptyText (.text config.collection) = .ok config.collection :=
    Check.nonemptyText_eq_ok_iff.mpr ⟨.inl rfl, h.collection⟩
  constructor
  · simpa [Check.required, fields, Value.lookup?] using hdatabase
  · simpa [Check.required, fields, Value.lookup?] using hcollection
  · exact Credentials.checkAll_of_rows hitems
  · simpa [Check.withDefault, fields, Value.lookup?] using htext config.idField
  · simpa [Check.withDefault, fields, Value.lookup?] using
      Check.optionalPositive_optionalInteger h.batchSize
  · simpa [Check.withDefault, fields, Value.lookup?] using
      Check.positive_int h.serverSelectionTimeout
  · simpa [Check.withDefault, fields, Value.lookup?] using Check.positive_int h.connectTimeout
  · simpa [Check.withDefault, fields, Value.lookup?] using
      Check.namedValues_namedDictionary h.clientOptions

theorem IsNormal.ofMapping_fields (h : config.IsNormal) {credentials : Value}
    (hrows : credentials.elements? = some items)
    (hitems : List.Forall₂ Credentials.IsRow items config.credentials) :
    ofMapping (.dict (config.fields credentials)) = .ok config := by
  have hcredentials : HasCredentials (config.fields credentials) items :=
    .given (by simp [fields, Value.lookup?]) hrows
  have hkeys : ∀ entry ∈ config.fields credentials, ∃ name ∈ fieldNames, entry.1 = .text name := by
    simp [fields, fieldNames]
  rw [ofMapping_eq_ok_iff]
  refine ⟨_, rfl, ?_⟩
  rw [ofEntries_eq_ok_iff]
  exact ⟨items, hcredentials, h.fieldsGive hitems, hkeys⟩

/-- A mapping that is accepted has no other keys than the eight fields, and gives a
configuration in normal form, with one user for each of its credentials.  The fields of the
configuration, with the credentials as rows of three texts, give the same one again. -/
theorem ofMapping_stable (h : ofMapping data = .ok config) :
    config.IsNormal ∧
      (∃ entries items, data.toEntries = .ok entries ∧
        (∀ entry ∈ entries, ∃ name ∈ fieldNames, entry.1 = .text name) ∧
        HasCredentials entries items ∧
        List.Forall₂ Credentials.GivenBy items config.credentials) ∧
      ∀ credentials rows, credentials.elements? = some rows →
        List.Forall₂ Credentials.IsRow rows config.credentials →
        ofMapping (.dict (config.fields credentials)) = .ok config := by
  obtain ⟨entries, hentries, hchecked⟩ := ofMapping_eq_ok_iff.mp h
  obtain ⟨items, hitems, hfields, hkeys⟩ := ofEntries_eq_ok_iff.mp hchecked
  have hnormal : config.IsNormal := hfields.isNormal
  refine ⟨hnormal, ⟨entries, items, hentries, hkeys, hitems, ?_⟩, ?_⟩
  · exact Credentials.givenBy_of_checkAll hfields.credentials
  · intro credentials rows hrows hall
    exact hnormal.ofMapping_fields hrows hall

/-- A text as bytes, an integer as text, as a truth value and as a double, credentials as a
row and by name, and an option that is given twice. -/
def variedSpellings : List (Value × Value) :=
  [(.text "database", .bytes [100, 98]), (.text "collection", .text "docs"),
    (.text "credentials", .tuple [.list [.text "u", .bytes [100], .text "p"],
      .dict [(.text "password", .text "q"), (.text "user", .text "v"),
        (.text "database", .text "e")]]),
    (.text "batch_size", .text " +01_0.0 "), (.text "server_selection_timeout_ms", .bool true),
    (.text "connect_timeout_ms", .float ⟨0x406F400000000000⟩),
    (.text "client_options", .dict [(.bytes [116, 108, 115], .null), (.text "tz", .int 0),
      (.text "tls", .bool true)])]

theorem ofMapping_stable_varied :
    let config : Config := ⟨"db", "docs", [⟨"u", "d", "p"⟩, ⟨"v", "e", "q"⟩], "_id", some 10, 1,
      250, [("tls", .bool true), ("tz", .int 0)]⟩
    let rows : List Value := [.tuple [.text "u", .text "d", .text "p"],
      .list [.text "v", .text "e", .text "q"]]
    ofMapping (.dict variedSpellings) = .ok config ∧ config.IsNormal ∧
      List.Forall₂ Credentials.IsRow rows config.credentials ∧
      ofMapping (.dict (config.fields (.list rows))) = .ok config := by
  intro config rows
  have haccepted : ofMapping (.dict variedSpellings) = .ok config := by decide +kernel
  have hrows : List.Forall₂ Credentials.IsRow rows config.credentials := .cons rfl (.cons rfl .nil)
  obtain ⟨hnormal, -, hagain⟩ := ofMapping_stable haccepted
  exact ⟨haccepted, hnormal, hrows, hagain (.list rows) rows rfl hrows⟩

end Config

end DocScan
