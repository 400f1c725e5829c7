import DocScan.Proofs.CheckReports
import DocScan.Proofs.ScanSteps

/-!
# How configurations are refused

A mapping gives a configuration or is rejected with the faults of its fields and
stray keys.  Only credentials that cannot be stepped through are not checked like
that: they are reported on their own, before anything is checked.
-/

namespace DocScan

/-- A value that is not made of others, and not null. -/
inductive Value.IsSingle : Value → Prop where
  | bool (b : Bool) : IsSingle (.bool b)
  | int (n : ℤ) : IsSingle (.int n)
  | float (x : Binary64) : IsSingle (.float x)
  | objectId (id : ObjectId) : IsSingle (.objectId id)

theorem Value.elements?_eq_none_iff {v : Value} : v.elements? = none ↔ v = .null ∨ v.IsSingle := by
  constructor
  · intro h
    cases v with
    | null => exact .inl rfl
    | bool b => exact .inr (.bool b)
    | int n => exact .inr (.int n)
    | float x => exact .inr (.float x)
    | objectId id => exact .inr (.objectId id)
    | _ => contradiction
  · rintro (rfl | ⟨b⟩ | ⟨n⟩ | ⟨x⟩ | ⟨id⟩) <;> rfl

namespace Credentials

open Checked

theorem reports_check (v : Value) : (check v).Reports := by
  have hfield : ∀ name entries, (Check.required name Check.text entries).Reports :=
    fun name entries => (Check.failsWith_required name Check.reports_text entries).mono
      fun _ _ => trivial
  unfold check
  split
  · rename_i entries
    split
    · simp
    · rename_i hfails
      exact ((hfield _ entries).both ((hfield _ entries).both (hfield _ entries))).carry hfails
  · simp

theorem reports_of_mem_checkFrom {items : List Value} {index : ℕ} {x : Checked Credentials}
    (h : x ∈ checkFrom index items) : x.Reports := by
  induction items generalizing index with
  | nil => contradiction
  | cons item rest ih =>
    rcases List.mem_cons.mp h with rfl | hrest
    · exact ((reports_check item).atPlace (.number index)).mono fun _ _ => trivial
    · exact ih hrest

theorem reports_checkAll (items : List Value) : (checkAll items).Reports := by
  unfold checkAll
  split
  · exact FailsWith.all fun _ => reports_of_mem_checkFrom
  · simp

end Credentials

namespace Config

open Checked

variable {entries : List (Value × Value)} {f : Fault}

/-- A fault of one of the fields. -/
def FieldFault (f : Fault) : Prop := ∃ name ∈ fieldNames, f.StandsAt (.name name)

/-- A fault of a key that names no field. -/
def KeyFault (entries : List (Value × Value)) (f : Fault) : Prop :=
  ∃ entry ∈ entries, (∀ name ∈ fieldNames, entry.1 ≠ .text name) ∧
    f.path = [Check.keyPlace entry.1]

theorem failsWith_checkFields (items : List Value) (entries : List (Value × Value)) :
    (checkFields items entries).FailsWith FieldFault := by
  have hfield : ∀ {α : Type} {name : String} {x : Checked α}, name ∈ fieldNames →
      x.FailsWith (Fault.StandsAt (.name name)) → x.FailsWith FieldFault := by
    intro α name x hname hx
    exact hx.mono fun f hf => ⟨name, hname, hf⟩
  have hdatabase := hfield (by decide)
    (Check.failsWith_required "database" Check.reports_nonemptyText entries)
  have hcollection := hfield (by decide)
    (Check.failsWith_required "collection" Check.reports_nonemptyText entries)
  have hcredentials : (atPlace (.name "credentials") (Credentials.checkAll items)).FailsWith
      FieldFault := hfield (by decide) ((Credentials.reports_checkAll items).atPlace _)
  have hidField := hfield (by decide)
    (Check.failsWith_withDefault "id_field" defaultIdField Check.reports_text entries)
  have hbatchSize := hfield (by decide)
    (Check.failsWith_withDefault "batch_size" none Check.reports_optionalPositive entries)
  have hselection := hfield (by decide)
    (Check.failsWith_withDefault "server_selection_timeout_ms" (5000 : ℤ) Check.reports_positive
      entries)
  have hconnect := hfield (by decide)
    (Check.failsWith_withDefault "connect_timeout_ms" (10000 : ℤ) Check.reports_positive entries)
  have hoptions := hfield (by decide)
    (Check.failsWith_withDefault "client_options" [] Check.reports_namedValues entries)
  unfold checkFields
  simp only
  split
  · simp
  · rename_i hfails
    exact (hdatabase.both (hcollection.both (hcredentials.both (hidField.both
      (hbatchSize.both (hselection.both (hconnect.both hoptions))))))).carry hfails

theorem keyFault_of_mem_strayKeys (h : f ∈ strayKeys entries) : KeyFault entries f := by
  obtain ⟨⟨key, value⟩, hentry, hf⟩ := List.mem_filterMap.mp h
  refine ⟨(key, value), hentry, ?_⟩
  simp only at hf ⊢
  split at hf
  · rename_i name
    split at hf
    · contradiction
    · rename_i hname
      cases hf
      refine ⟨?_, rfl⟩
      rintro field hfield heq
      cases heq
      exact hname (List.contains_iff_mem.mpr hfield)
  · rename_i hkey
    cases hf
    exact ⟨fun name _ => hkey name, rfl⟩

/-- The mapping's credentials cannot be stepped through. -/
def HasSingleCredentials (entries : List (Value × Value)) (v : Value) : Prop :=
  Value.lookup? "credentials" entries = some v ∧ v.IsSingle

theorem HasSingleCredentials.credentialItems {v : Value} (h : HasSingleCredentials entries v) :
    credentialItems entries = .error (.credentials v) := by
  obtain ⟨hlookup, hsingle⟩ := h
  cases hsingle <;> simp [Config.credentialItems, hlookup, Value.elements?]

theorem exists_credentialItems (h : ¬ ∃ v, HasSingleCredentials entries v) :
    ∃ items, credentialItems entries = .ok items := by
  unfold credentialItems
  split
  case h_1 => exact ⟨[], rfl⟩
  case h_2 => exact ⟨[], rfl⟩
  case h_3 value hnull hlookup =>
    cases helements : value.elements? with
    | some items => exact ⟨items, rfl⟩
    | none =>
      rcases Value.elements?_eq_none_iff.mp helements with rfl | hsingle
      · contradiction
      · exact absurd ⟨value, hlookup, hsingle⟩ h

theorem failsWith_fieldsAndKeys (items : List Value) (entries : List (Value × Value)) :
    (both (checkFields items entries)
      (match strayKeys entries with
        | [] => (.ok () : Checked Unit)
        | fs => .error fs)).FailsWith fun f => FieldFault f ∨ KeyFault entries f := by
  refine ((failsWith_checkFields items entries).mono fun _ => .inl).both ?_
  split
  · simp
  · rename_i hne
    exact (failsWith_error _).mpr ⟨hne, fun f hf => .inr (keyFault_of_mem_strayKeys hf)⟩

theorem ofEntries_of_single {v : Value} (h : HasSingleCredentials entries v) :
    ofEntries entries = .error (.credentials v) := by
  simp [ofEntries, h.credentialItems]

theorem ofEntries_answers (h : ¬ ∃ v, HasSingleCredentials entries v) :
    (∃ config, ofEntries entries = .ok config) ∨
      ∃ faults, faults ≠ [] ∧ (∀ f ∈ faults, FieldFault f ∨ KeyFault entries f) ∧
        ofEntries entries = .error (.invalid faults) := by
  obtain ⟨items, hitems⟩ := exists_credentialItems h
  unfold ofEntries
  simp only [hitems]
  split
  · rename_i config _
    exact .inl ⟨config, rfl⟩
  · rename_i faults hfails
    obtain ⟨hne, hfaults⟩ := failsWith_fieldsAndKeys items entries faults hfails
    exact .inr ⟨faults, hne, hfaults, rfl⟩

/-- A mapping gives a configuration or is rejected with faults of its fields and of
stray keys, exactly if its credentials can be stepped through.  A scan with a mapping
reports what is wrong with it in its first draw, and asks nothing of the server. -/
theorem ofMapping_answers_iff (entries : List (Value × Value)) :
    (((∃ config, ofMapping (.dict entries) = .ok config) ∨
        ∃ faults, faults ≠ [] ∧ (∀ f ∈ faults, FieldFault f ∨ KeyFault entries f) ∧
          ofMapping (.dict entries) = .error (.rejected faults)) ↔
      ¬ ∃ v, HasSingleCredentials entries v) ∧
    (∀ v, HasSingleCredentials entries v →
      ofMapping (.dict entries) = .error (.credentials v)) ∧
    ∀ (s : Scan) (w : Server) (e : ConfigError), s.phase = .waiting →
      s.config = .mapping (.dict entries) → ofMapping (.dict entries) = .error e →
      Scan.draw s w = ⟨.error (.config e), s.withPhase .ended, w, []⟩ := by
  have hsingle : ∀ v, HasSingleCredentials entries v →
      ofMapping (.dict entries) = .error (.credentials v) := by
    intro v hv
    simp [ofMapping, Value.toEntries, ofEntries_of_single hv]
  refine ⟨⟨?_, ?_⟩, hsingle, ?_⟩
  · rintro hanswer ⟨v, hv⟩
    rw [hsingle v hv] at hanswer
    simp at hanswer
  · intro hnone
    obtain ⟨config, hconfig⟩ | ⟨faults, hne, hfaults, hinvalid⟩ := ofEntries_answers hnone
    · exact .inl ⟨config, by simp [ofMapping, Value.toEntries, hconfig]⟩
    · exact .inr ⟨faults, hne, hfaults, by simp [ofMapping, Value.toEntries, hinvalid]⟩
  · intro s w e hphase hsource herror
    have hresolve : s.config.resolve = .error e := by
      rw [hsource]
      exact herror
    exact Scan.draw_unresolved hphase hresolve

/-- The entries of a configuration with a number for its credentials. -/
def numberedCredentials : List (Value × Value) :=
  [(.text "database", .text "d"), (.text "collection", .text "c"), (.text "credentials", .int 5)]

theorem ofMapping_answers_iff_numbered :
    let scan := Scan.waiting (.mapping (.dict numberedCredentials)) [] [] ⟨0, ["h"], .unbounded⟩
    let w : Server := ⟨[.int 1], fun _ => [], 0⟩
    HasSingleCredentials numberedCredentials (.int 5) ∧
      ofMapping (.dict numberedCredentials) = .error (.credentials (.int 5)) ∧
      Scan.draw scan w =
        ⟨.error (.config (.credentials (.int 5))), scan.withPhase .ended, w, []⟩ := by
  intro scan w
  obtain ⟨-, hreports, hdraw⟩ := ofMapping_answers_iff numberedCredentials
  have hsingle : HasSingleCredentials numberedCredentials (.int 5) := ⟨by decide +kernel, .int 5⟩
  have hfails := hreports (.int 5) hsingle
  exact ⟨hsingle, hfails, hdraw scan w _ rfl rfl hfails⟩

/-- Not every mapping gives a configuration or is rejected: a number for the
credentials is reported in another way. -/
theorem ofMapping_leaves_numbered :
    ¬ ∀ entries, (∃ config, ofMapping (.dict entries) = .ok config) ∨
      ∃ faults, ofMapping (.dict entries) = .error (.rejected faults) := by
  intro hall
  have hresult : ofMapping (.dict numberedCredentials) = .error (.credentials (.int 5)) := by
    decide +kernel
  have hanswer := hall numberedCredentials
  simp [hresult] at hanswer

end Config

end DocScan
