import DocScan.Proofs.JsonLegibility
import DocScan.Proofs.WireMeaning

/-!
# Faults are reported where they are

A fault has an address, and following the address from the whole value leads to one
node.  Only connectives are passed on the way, and each step goes past conditions that
can be read.  The fault is the node's own: the same fault is reported when the node is
read by itself, and none of its conditions is at fault.  The message names the address,
except for a leaf that cannot be shown.  Of the items of a list the first one that
cannot be read is reported.
-/

namespace DocScan

/-! ## Nodes below nodes -/

namespace Value

def IsRead (data : Value) : Prop := ∀ address, ∃ f, Filter.ofWire address data = .ok f

/-- A node whose operator is a connective, with the conditions it has. -/
inductive HasBranches : Value → List Value → Prop where
  | connective {entries : List (Value × Value)} {c : Connective} {name : String}
      {items : List Value} (hname : HasText entries "op" name)
      (hop : (Operator.connective c).NamedBy name) (hitems : HasConditions entries items) :
      HasBranches (.dict entries) items

/-- Taking the numbered condition at each step leads from one node to another,
always past conditions that can be read. -/
inductive Leads : Value → List ℕ → Value → Prop where
  | here (data : Value) : Leads data [] data
  | condition {data item node : Value} {before after : List Value} {path : List ℕ}
      (hitems : data.HasBranches (before ++ item :: after))
      (hbefore : ∀ other ∈ before, other.IsRead) (hrest : Leads item path node) :
      Leads data (before.length :: path) node

/-- A fault of a node itself: wherever the node stands the fault is reported
there, no other node is shown with it, and none of the node's conditions has a fault. -/
structure OwnFault (node : Value) (fault : WireFault) : Prop where
  reported : ∀ address, Filter.ofWire address node = .error ⟨fault, address⟩
  shown : ∀ other, fault = .missingAttribute other → other = node
  branches : ∀ items, node.HasBranches items → ∀ item ∈ items, item.IsRead

theorem IsWireForm.isRead {data : Value} (h : data.IsWireForm) : data.IsRead := by
  intro address
  have hread := Filter.ofWire_of_isWireForm h address
  rcases hread with ⟨f, hf, -⟩
  exact ⟨f, hf⟩

end Value

/-! ## Addresses -/

namespace Address

/-- The address that is reached from another by further steps. -/
def below (a : Address) (path : List ℕ) : Address := ⟨a.root, a.steps ++ path⟩

theorem below_nil (a : Address) : a.below [] = a := by
  simp [below]

theorem below_child (a : Address) (index : ℕ) (path : List ℕ) :
    (a.child index).below path = a.below (index :: path) := by
  simp [below, child]

theorem text_below (a : Address) (path : List ℕ) :
    (a.below path).text =
      a.text ++ String.join (path.map fun i => ".conditions[" ++ toString i ++ "]") := by
  simp [below, text, String.join_append, String.append_assoc]

end Address

namespace WireError

theorem message_eq_of_text {fault : WireFault} {a b : Address} (h : a.text = b.text) :
    (WireError.mk fault a).message = (WireError.mk fault b).message := by
  simp only [message, h]
  rfl

theorem exists_withSuggestions (message : String) (words : List String) :
    ∃ rest, withSuggestions message words = message ++ rest := by
  unfold withSuggestions
  split
  · exact ⟨"", (String.append_empty).symm⟩
  · exact ⟨_, by rw [String.append_assoc, String.append_assoc]⟩

theorem message_names_address {e : WireError} (h : e.IsLegible) :
    ∃ before after, e.message = before ++ e.address.text ++ after := by
  rcases e with ⟨fault, address⟩
  cases fault with
  | notDictionary value =>
    exact ⟨"Expected a dict at ", ", got " ++ value.kindName,
      by simp [message, String.append_assoc]⟩
  | missingOperator => exact ⟨"Missing or empty 'op' key at ", "", by simp [message]⟩
  | unknownOperator name =>
    have hextended := exists_withSuggestions ("Unknown filter operator '" ++ name ++ "' at " ++
      address.text ++ ".") (WireError.mk (.unknownOperator name) address).suggestions
    rcases hextended with ⟨rest, hrest⟩
    exact ⟨"Unknown filter operator '" ++ name ++ "' at ", "." ++ rest,
      by simpa [message, String.append_assoc] using hrest⟩
  | missingAttribute node =>
    have hshown : node.display?.isSome :=
      node.isSome_display?_iff.mpr (isLegible_missingAttribute_iff.mp h)
    obtain ⟨shown, hshown⟩ := Option.isSome_iff_exists.mp hshown
    exact ⟨"Leaf filter missing 'attr' at ", ": " ++ shown,
      by simp [message, hshown, String.append_assoc]⟩
  | missingConditions c =>
    exact ⟨"Logical operator '" ++ c.text ++ "' requires 'conditions' list at ", "",
      by simp [message]⟩
  | notOneCondition => exact ⟨"'not' takes exactly one condition at ", "", by simp [message]⟩
  | tooFewConditions c =>
    exact ⟨"Logical operator '" ++ c.text ++ "' requires at least two conditions at ", "",
      by simp [message]⟩

end WireError

/-! ## Faults of nodes -/

variable {address : Address} {data : Value} {e : WireError}

/-- A fault that a value has wherever it stands is its own, if its conditions
can be read. -/
theorem Value.OwnFault.of_firstFault {fault : WireFault}
    (h : ∀ place, FirstFault place data ⟨fault, place⟩)
    (hshown : ∀ other, fault = .missingAttribute other → other = data)
    (hbranches : ∀ items, data.HasBranches items → ∀ item ∈ items, item.IsRead) :
    data.OwnFault fault :=
  ⟨fun place => Filter.ofWire_of_firstFault (h place), hshown, hbranches⟩

/-- What is said of a fault: its address leads to a node, and the fault is the
node's own. -/
def Located (address : Address) (data : Value) (e : WireError) : Prop :=
  ∃ path node, e.address = address.below path ∧ data.Leads path node ∧ node.OwnFault e.fault

theorem Value.OwnFault.located {fault : WireFault} (h : data.OwnFault fault) :
    Located address data ⟨fault, address⟩ :=
  ⟨[], data, address.below_nil.symm, .here data, h⟩

theorem FirstFault.located (h : FirstFault address data e) : Located address data e := by
  induction h with
  | @notDictionary address data hdata =>
    have hown : data.OwnFault (.notDictionary data) := by
      apply Value.OwnFault.of_firstFault (fun place => .notDictionary hdata) (by simp)
      intro items hitems
      cases hitems with
      | connective => exact absurd rfl (hdata _)
    exact hown.located
  | @missingOperator address entries hmissing =>
    have hown : (Value.dict entries).OwnFault .missingOperator := by
      apply Value.OwnFault.of_firstFault (fun place => .missingOperator hmissing) (by simp)
      intro items hitems
      cases hitems with
      | connective hname => exact absurd hname (hmissing _)
    exact hown.located
  | @unknownOperator address entries name hname hunknown =>
    have hown : (Value.dict entries).OwnFault (.unknownOperator name) := by
      apply Value.OwnFault.of_firstFault (fun place => .unknownOperator hname hunknown) (by simp)
      intro items hitems
      cases hitems with
      | connective hother hop =>
        cases hname.unique hother
        exact absurd hop (hunknown _)
    exact hown.located
  | @missingAttribute address entries op name hname hop hmissing =>
    have hown : (Value.dict entries).OwnFault (.missingAttribute (.dict entries)) := by
      apply Value.OwnFault.of_firstFault (fun place => .missingAttribute hname hop hmissing)
        (by simp)
      intro items hitems
      cases hitems with
      | connective hother hconnective =>
        cases hname.unique hother
        have hsame := hop.unique hconnective
        contradiction
    exact hown.located
  | @missingConditions address entries c name hname hop hmissing =>
    have hown : (Value.dict entries).OwnFault (.missingConditions c) := by
      apply Value.OwnFault.of_firstFault
        (fun place => .missingConditions hname hop hmissing) (by simp)
      intro items hitems
      cases hitems with
      | connective _ _ hitems =>
        rw [hmissing _ hitems]
        exact List.forall_mem_nil _
    exact hown.located
  | condition hname hop hitems hbefore _ ih =>
    rcases ih with ⟨path, node, haddress, hleads, hown⟩
    rw [Address.below_child] at haddress
    have hread := fun other hother => (hbefore other hother).isRead
    exact ⟨_, node, haddress, .condition (.connective hname hop hitems) hread hleads, hown⟩
  | @count address entries c name items hname hop hitems hne hall hcount =>
    have hown : (Value.dict entries).OwnFault c.countFault := by
      apply Value.OwnFault.of_firstFault (fun place => .count hname hop hitems hne hall hcount)
        (by cases c <;> simp [Connective.countFault])
      intro others hothers
      cases hothers with
      | connective _ _ hothers =>
        cases hitems.unique hothers
        exact fun item hitem => (hall item hitem).isRead
    exact hown.located

/-! ## Items of lists -/

namespace Filter

/-- Filters are read from items, each from the one in its place. -/
def ReadInOrder (index : ℕ) (items : List Value) (filters : List Filter) : Prop :=
  List.Forall₂ (fun entry f => ofWire (Address.item entry.2) entry.1 = .ok f)
    (items.zipIdx index) filters

/-- The first item that cannot be read has the fault that is reported. -/
def FirstUnread (index : ℕ) (items : List Value) (e : WireError) : Prop :=
  ∃ before item after, items = before ++ item :: after ∧ (∀ other ∈ before, other.IsRead) ∧
    ofWire (Address.item (index + before.length)) item = .error e

theorem ofJsonItems_eq_ok_iff {index : ℕ} {items : List Value} {filters : List Filter} :
    ofJsonItems index items = .ok filters ↔ ReadInOrder index items filters := by
  unfold ReadInOrder
  induction items generalizing index filters with
  | nil => simp [ofJsonItems, eq_comm]
  | cons item rest ih =>
    rw [ofJsonItems, List.zipIdx_cons, List.forall₂_cons_left_iff]
    simp only [← ih]
    cases hhead : ofWire (Address.item index) item with
    | error e => simp [bind, Except.bind]
    | ok head =>
      cases htail : ofJsonItems (index + 1) rest with
      | error e => simp [bind, Except.bind]
      | ok tail => simp [bind, Except.bind, pure, Except.pure, eq_comm]

theorem isRead_of_ofWire {f : Filter} (h : ofWire address data = .ok f) : data.IsRead :=
  (isWireForm_of_ofWire h).isRead

theorem ofJsonItems_eq_error_iff {index : ℕ} {items : List Value} :
    ofJsonItems index items = .error e ↔ FirstUnread index items e := by
  unfold FirstUnread
  induction items generalizing index with
  | nil => simp [ofJsonItems]
  | cons item rest ih =>
    rw [ofJsonItems]
    constructor
    · intro h
      cases hhead : ofWire (Address.item index) item with
      | error failure =>
        have hsame : failure = e := by simpa [hhead, bind, Except.bind] using h
        subst hsame
        exact ⟨[], item, rest, rfl, List.forall_mem_nil _, by simpa using hhead⟩
      | ok head =>
        have htail : ofJsonItems (index + 1) rest = .error e := by
          cases htail : ofJsonItems (index + 1) rest with
          | error failure => simpa [hhead, htail, bind, Except.bind] using h
          | ok tail => simp [hhead, htail, bind, Except.bind, pure, Except.pure] at h
        rcases ih.mp htail with ⟨before, unread, after, rfl, hbefore, hunread⟩
        refine ⟨item :: before, unread, after, rfl, ?_, ?_⟩
        · exact List.forall_mem_cons.mpr ⟨isRead_of_ofWire hhead, hbefore⟩
        · simpa [Nat.add_assoc, Nat.add_comm 1] using hunread
    · rintro ⟨before, unread, after, hsplit, hbefore, hunread⟩
      cases before with
      | nil =>
        have hsame : item = unread ∧ rest = after := by simpa using hsplit
        have hhead : ofWire (Address.item index) item = .error e := by
          simpa [hsame.1] using hunread
        rw [hhead]
        rfl
      | cons other before =>
        have hsame : item = other ∧ rest = before ++ unread :: after := by simpa using hsplit
        rw [List.forall_mem_cons] at hbefore
        have hhead := hbefore.1 (Address.item index)
        have htail : ofJsonItems (index + 1) rest = .error e := by
          apply ih.mpr
          exact ⟨before, unread, after, hsame.2, hbefore.2,
            by simpa [Nat.add_assoc, Nat.add_comm 1] using hunread⟩
        rcases hhead with ⟨f, hf⟩
        rw [hsame.1, hf, htail]
        rfl

/-! ## What a refusal says -/

/-- A failure is of one node: the message of a refusal names the address that leads
there, and the node by itself fails in the same words, which are about no condition of
the node.  It is not refused only if it is a leaf to be shown that cannot be; then the
limit is all that is named. -/
structure Blames (address : Address) (data : Value) (e : WireError) (path : List ℕ)
    (node : Value) : Prop where
  place : e.address.text =
    address.text ++ String.join (path.map fun i => ".conditions[" ++ toString i ++ "]")
  named : e.refusal? ≠ none → ∃ before after, e.message = before ++ e.address.text ++ after
  unshown : e.refusal? = none ↔ e.fault = .missingAttribute node ∧ ¬ node.IsLegible
  limit : e.refusal? = none → e.message = Decimal.limitMessage
  leads : data.Leads path node
  again : ofWire e.address node = .error e
  alone : ∀ other : Address, other.text = e.address.text →
    ∃ same, ofWire other node = .error same ∧ same.message = e.message ∧
      same.refusal? = e.refusal? ∧ same.suggestions = e.suggestions
  branches : ∀ items, node.HasBranches items → ∀ item ∈ items, item.IsRead

theorem blames_of_ofWire (h : ofWire address data = .error e) :
    ∃ path node, Blames address data e path node := by
  rcases e with ⟨fault, place⟩
  have hlocated := (firstFault_of_ofWire h).located
  rcases hlocated with ⟨path, node, haddress, hleads, hown⟩
  simp only at haddress
  refine ⟨path, node, ?_⟩
  constructor
  · simp only [haddress, Address.text_below]
  · intro hrefused
    exact WireError.message_names_address
      (not_not.mp (mt WireError.refusal?_eq_none_iff.mpr hrefused))
  · rw [WireError.refusal?_eq_none_iff]
    constructor
    · intro hillegible
      unfold WireError.IsLegible at hillegible
      push Not at hillegible
      obtain ⟨other, hother, hunshown⟩ := hillegible
      cases hown.shown other hother
      exact ⟨hother, hunshown⟩
    · rintro ⟨hfault, hunshown⟩ hlegible
      exact hunshown (hlegible node hfault)
  · exact fun hnone => WireError.message_of_not_isLegible (WireError.refusal?_eq_none_iff.mp hnone)
  · exact hleads
  · exact hown.reported place
  · intro other hother
    exact ⟨_, hown.reported other, WireError.message_eq_of_text hother, rfl, rfl⟩
  · exact hown.branches

/-- Whatever cannot be read fails for one node, and a refusal names its address.  A list
is read item by item, and fails as its first item that cannot be read.  No item of a
JSON text fails without being refused. -/
theorem refusals_blame_nodes (address : Address) (data : Value) (text : String) :
    (∀ e, ofWire address data = .error e → ∃ path node, Blames address data e path node) ∧
    (∀ e, ofJson text = .error (.node e) → e.refusal? ≠ none) ∧
    ∀ items, JsonText.read text = .ok (.list items) →
      (∀ filters, ofJson text = .ok filters ↔ ReadInOrder 0 items filters) ∧
      ∀ e, ofJson text = .error e ↔ ∃ fault, e = .node fault ∧ FirstUnread 0 items fault := by
  refine ⟨fun _ h => blames_of_ofWire h, ?_, ?_⟩
  · intro e h
    rw [ne_eq, WireError.refusal?_eq_none_iff, not_not]
    exact isLegible_of_ofJson h
  · intro items htext
    have hjson : ofJson text = ofJsonValue (.list items) := by rw [ofJson, htext]
    rw [hjson]
    simp only [ofJsonValue, ← ofJsonItems_eq_ok_iff, ← ofJsonItems_eq_error_iff]
    cases ofJsonItems 0 items with
    | ok filters => simp
    | error fault => simp [eq_comm]

/-- The second of three items is refused for a lone condition of its negation, and
the third one, which has no operator, is not looked at. -/
theorem refusals_blame_nodes_below_negation :
    let text := "[\x7b\"op\": \"is_null\", \"attr\": \"a\"\x7d, " ++
      "\x7b\"op\": \"Not\", \"condition\": \x7b\"op\": \"or\", \"conditions\": " ++
      "[\x7b\"op\": \"=\", \"attr\": \"b\", \"val\": 1\x7d]\x7d\x7d, 7]"
    let negation : Value := .dict [(.text "op", .text "Not"), (.text "condition",
      wireConnective .or [wireLeaf "=" "b" (.int 1)])]
    let items : List Value := [wireCheck "is_null" "a", negation, .int 7]
    let fault : WireError := ⟨.tooFewConditions .or, ⟨"<root>[1]", [0]⟩⟩
    JsonText.read text = .ok (.list items) ∧
      ofWire (Address.item 1) negation = .error fault ∧
      fault.message = "Logical operator 'or' requires at least two conditions at " ++
        "<root>[1].conditions[0]" ∧
      (∃ path node, Blames (Address.item 1) negation fault path node) ∧
      ofJson text = .error (.node fault) := by
  intro text negation items fault
  have htext : JsonText.read text = .ok (.list items) := by decide +kernel
  have hfault : ofWire (Address.item 1) negation = .error fault := by decide +kernel
  have hfirst : (wireCheck "is_null" "a").IsRead := by
    have hread : ofWire Address.whole (wireCheck "is_null" "a") = .ok (.isNull "a") := by
      decide +kernel
    exact isRead_of_ofWire hread
  obtain ⟨hblames, -, hlist⟩ := refusals_blame_nodes (Address.item 1) negation text
  refine ⟨htext, hfault, by decide +kernel, hblames _ hfault, ?_⟩
  apply ((hlist items htext).2 _).mpr
  exact ⟨fault, rfl, [_], negation, [_], rfl, by simpa using hfirst, hfault⟩

/-- The message for a leaf that cannot be shown names no address. -/
theorem refusals_leave_unshown :
    ∃ e, ofWire .whole overlongLeaf = .error e ∧
      ∀ before after, e.message ≠ before ++ "<root>" ++ after := by
  have hread := ofWire_overlongLeaf .whole
  have hillegible := not_isLegible_overlongLeaf .whole
  refine ⟨_, hread, fun before after hnamed => ?_⟩
  rw [WireError.message_of_not_isLegible hillegible] at hnamed
  have hbracket : '<' ∈ Decimal.limitMessage.toList := by
    rw [hnamed]
    simp
  revert hbracket
  decide +kernel

end Filter

end DocScan
