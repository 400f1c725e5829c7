import DocScan.Proofs.AtomicConstraints
import Mathlib.Data.List.Perm.Basic

/-!
# Merging keeps every part of a query

A query asks for all of its parts.  They are the clauses under `$and` and the
conditions under its other keys, with a dictionary of operators taken apart
operator by operator.  Adding, uniting, appending and moving conditions all
leave the parts as they are, so a merge has the parts of the query together
with those of the clause, each as often as before.
-/

namespace DocScan

open scoped List

/-! ## Dictionaries of operators -/

theorem Value.operators?_eq_some_iff {v : Value} {ops : List (Value × Value)} :
    v.operators? = some ops ↔
      v = .dict ops ∧ ops ≠ [] ∧ ∀ op ∈ ops, op.1.isOperatorKey = true := by
  cases v with
  | dict entries =>
    cases entries with
    | nil =>
      simp only [operators?, dict.injEq]
      constructor
      · intro h
        contradiction
      · rintro ⟨rfl, hne, -⟩
        contradiction
    | cons entry rest =>
      simp only [operators?, dict.injEq, Option.ite_none_right_eq_some, Option.some.injEq,
        List.all_eq_true]
      constructor
      · rintro ⟨hkeys, rfl⟩
        exact ⟨rfl, List.cons_ne_nil _ _, hkeys⟩
      · rintro ⟨rfl, -, hkeys⟩
        exact ⟨hkeys, rfl⟩
  | _ => simp [operators?]

theorem Value.unite?_eq_some {existing added united : Value}
    (h : existing.unite? added = some united) :
    ∃ es fs, existing.operators? = some es ∧ added.operators? = some fs ∧
      united.operators? = some (es ++ fs) := by
  unfold unite? at h
  split at h
  · rename_i es fs hes hfs
    split at h
    · contradiction
    · cases h
      refine ⟨es, fs, hes, hfs, ?_⟩
      obtain ⟨-, hne, hekeys⟩ := operators?_eq_some_iff.mp hes
      obtain ⟨-, -, hfkeys⟩ := operators?_eq_some_iff.mp hfs
      refine operators?_eq_some_iff.mpr ⟨rfl, by simp [hne], ?_⟩
      intro op hop
      rcases List.mem_append.mp hop with hop | hop
      · exact hekeys op hop
      · exact hfkeys op hop
  · contradiction

/-- A document under one key with operators, as one document for each
operator.  Any other document stays whole. -/
def Value.split : Value → List Value
  | .dict [(key, condition)] =>
    match condition.operators? with
    | some ops => ops.map fun op => .dict [(key, .dict [op])]
    | none => [.dict [(key, condition)]]
  | document => [document]

/-- The parts of a clause: the split clauses under `$and`, or the split clause
itself. -/
def Clause.parts (c : Clause) : List Value :=
  match c.condition with
  | .list clauses => if c.key = "$and" then clauses.flatMap Value.split else c.toValue.split
  | _ => c.toValue.split

/-- Under the keys of connectives stand lists. -/
def Clause.Regular (c : Clause) : Prop :=
  c.key = "$and" ∨ c.key = "$or" → ∃ clauses, c.condition = .list clauses

theorem Clause.parts_of_operators? {c : Clause} {ops : List (Value × Value)}
    (h : c.condition.operators? = some ops) :
    c.parts = ops.map fun op => .dict [(.text c.key, .dict [op])] := by
  obtain ⟨key, condition⟩ := c
  obtain ⟨rfl, -, -⟩ := Value.operators?_eq_some_iff.mp h
  simp only at h
  simp only [parts, toValue, Value.split, h]

theorem Clause.parts_of_ne {c : Clause} (h : c.key ≠ "$and") : c.parts = c.toValue.split := by
  obtain ⟨key, condition⟩ := c
  cases condition with
  | list clauses => exact if_neg h
  | _ => rfl

theorem Clause.parts_conjunction (clauses : List Value) :
    (Clause.mk "$and" (.list clauses)).parts = clauses.flatMap Value.split := rfl

namespace Query

def keys (q : Query) : List String := q.entries.map Prod.fst

def parts (q : Query) : List Value :=
  q.entries.flatMap fun entry => (Clause.mk entry.1 entry.2).parts

/-- Every key has one condition, and under the keys of connectives stand
lists. -/
structure Regular (q : Query) : Prop where
  nodup_keys : q.keys.Nodup
  lists : ∀ entry ∈ q.entries, (Clause.mk entry.1 entry.2).Regular

variable {q : Query} {key : String} {condition : Value}

theorem mem_entries_of_find? (h : q.find? key = some condition) :
    (key, condition) ∈ q.entries := by
  unfold find? at h
  obtain ⟨entry, hentry, rfl⟩ := Option.map_eq_some_iff.mp h
  have hkey : entry.1 = key := by simpa using List.find?_some hentry
  rw [← hkey]
  exact List.mem_of_find?_eq_some hentry

theorem not_mem_keys_of_find? (h : q.find? key = none) : key ∉ q.keys := by
  intro hmem
  obtain ⟨entry, hentry, hkey⟩ := List.mem_map.mp hmem
  unfold find? at h
  have hnot := List.find?_eq_none.mp (Option.map_eq_none_iff.mp h) entry hentry
  simp [hkey] at hnot

theorem erase_entries_of_not_mem (h : key ∉ q.keys) : (q.erase key).entries = q.entries := by
  unfold erase
  rw [List.filter_eq_self]
  intro entry hentry
  have hne : entry.1 ≠ key := fun heq => h (List.mem_map.mpr ⟨entry, hentry, heq⟩)
  simpa using hne

theorem entries_perm_erase (hnodup : q.keys.Nodup) (h : q.find? key = some condition) :
    q.entries ~ (key, condition) :: (q.erase key).entries := by
  obtain ⟨entries⟩ := q
  induction entries with
  | nil => simp [find?] at h
  | cons entry rest ih =>
    have hrest : entry.1 ∉ (Query.mk rest).keys := (List.nodup_cons.mp hnodup).1
    by_cases hkey : entry.1 = key
    · have hentry : entry = (key, condition) := by
        simp only [find?, List.find?_cons, hkey, decide_true, Option.map_some,
          Option.some.injEq] at h
        exact Prod.ext hkey h
      have herase : ((Query.mk (entry :: rest)).erase key).entries = rest := by
        rw [hkey] at hrest
        calc
          ((Query.mk (entry :: rest)).erase key).entries =
              ((Query.mk rest).erase key).entries := by
            simp [erase, hkey]
          _ = rest := erase_entries_of_not_mem hrest
      rw [herase, hentry]
    · have hfind : (Query.mk rest).find? key = some condition := by
        simpa [find?, hkey] using h
      have hperm := ih (List.nodup_cons.mp hnodup).2 hfind
      have herase : ((Query.mk (entry :: rest)).erase key).entries =
          entry :: ((Query.mk rest).erase key).entries := by
        simp [erase, hkey]
      rw [herase]
      exact (hperm.cons entry).trans (List.Perm.swap _ _ _)

theorem keys_replace (new : Value) : (q.replace key new).keys = q.keys := by
  unfold keys replace
  rw [List.map_map]
  apply List.map_congr_left
  intro entry _
  by_cases hkey : entry.1 = key <;> simp [hkey]

theorem erase_replace (new : Value) : (q.replace key new).erase key = q.erase key := by
  obtain ⟨entries⟩ := q
  simp only [replace, erase, mk.injEq]
  induction entries with
  | nil => rfl
  | cons entry rest ih =>
    by_cases hkey : entry.1 = key
    · simpa [hkey] using ih
    · simpa [hkey] using ih

theorem forall_entries_add {P : String × Value → Prop} (hq : ∀ entry ∈ q.entries, P entry)
    (hnew : P (key, condition)) : ∀ entry ∈ (q.add key condition).entries, P entry :=
  List.forall_mem_append.mpr ⟨hq, List.forall_mem_singleton.mpr hnew⟩

theorem forall_entries_replace {P : String × Value → Prop} (hq : ∀ entry ∈ q.entries, P entry)
    (hnew : P (key, condition)) : ∀ entry ∈ (q.replace key condition).entries, P entry := by
  intro entry hentry
  obtain ⟨old, hold, rfl⟩ := List.mem_map.mp hentry
  by_cases hkey : old.1 = key
  · simpa [hkey] using hnew
  · simpa [hkey] using hq old hold

/-! ## What a merge comes to -/

theorem conjoin_eq_ok {q' : Query} {clauses : List Value} (h : q.conjoin clauses = .ok q') :
    (q.find? "$and" = none ∧ q' = q.add "$and" (.list clauses)) ∨
      ∃ items, q.find? "$and" = some (.list items) ∧
        q' = q.replace "$and" (.list (items ++ clauses)) := by
  unfold conjoin at h
  split at h
  · rename_i hfind
    exact .inl ⟨hfind, (Except.ok.inj h).symm⟩
  · rename_i items hfind
    exact .inr ⟨items, hfind, (Except.ok.inj h).symm⟩
  · contradiction

/-- The clauses that are put under `$and` come after those that are there, and
nothing else changes. -/
theorem find?_conjoin {q' : Query} {clauses : List Value} (h : q.conjoin clauses = .ok q') :
    (∃ items, q'.find? "$and" = some (.list (items ++ clauses)) ∧
      ∀ earlier, q.find? "$and" = some (.list earlier) → items = earlier) ∧
    ∀ key, key ≠ "$and" → q'.find? key = q.find? key := by
  rcases conjoin_eq_ok h with ⟨hfind, rfl⟩ | ⟨items, hfind, rfl⟩
  · constructor
    · exact ⟨[], by simp [find?_add, hfind], by simp [hfind]⟩
    · intro key hkey
      simp [find?_add, hkey.symm]
  · constructor
    · exact ⟨items, by simp [find?_replace, hfind], by simp [hfind]⟩
    · intro key hkey
      simp [find?_replace, hkey]

/-- A clause under `$and` extends the list that is there. -/
theorem merge_conjunction {q' : Query} {c : Clause} {existing : Value}
    (hfind : q.find? c.key = some existing) (hkey : c.key = "$and") (h : q.merge c = .ok q') :
    ∃ clauses, c.condition.elements? = some clauses ∧ q.conjoin clauses = .ok q' := by
  unfold merge at h
  simp only [hfind, if_pos hkey] at h
  split at h
  · split at h
    · rename_i clauses hclauses
      exact ⟨clauses, hclauses, h⟩
    · contradiction
  · contradiction

/-- The five ways in which a clause comes into a query. -/
inductive Merges (q : Query) (c : Clause) : Query → Prop where
  | added (hfind : q.find? c.key = none) : Merges q c (q.add c.key c.condition)
  | extended {q' : Query} {clauses : List Value} (hkey : c.key = "$and")
      (hclauses : c.condition.elements? = some clauses) (h : q.conjoin clauses = .ok q') :
      Merges q c q'
  | united {existing united : Value} (hkey : c.key ≠ "$and")
      (hfind : q.find? c.key = some existing)
      (hunite : existing.unite? c.condition = some united) : Merges q c (q.replace c.key united)
  | repeated {q' : Query} {existing : Value} (hkey : c.key = "$or")
      (hfind : q.find? c.key = some existing) (hunite : existing.unite? c.condition = none)
      (h : q.conjoin [c.toValue] = .ok q') : Merges q c q'
  | moved {q' : Query} {existing : Value} (hkey : c.key ≠ "$and" ∧ c.key ≠ "$or")
      (hfind : q.find? c.key = some existing) (hunite : existing.unite? c.condition = none)
      (h : (q.erase c.key).conjoin [(Clause.mk c.key existing).toValue, c.toValue] = .ok q') :
      Merges q c q'

theorem merges_of_merge {q' : Query} {c : Clause} (h : q.merge c = .ok q') : Merges q c q' := by
  cases hfind : q.find? c.key with
  | none =>
    simp only [merge, hfind, Except.ok.injEq] at h
    subst h
    exact .added hfind
  | some existing =>
    by_cases hand : c.key = "$and"
    · rcases merge_conjunction hfind hand h with ⟨clauses, hclauses, hconjoin⟩
      exact .extended hand hclauses hconjoin
    simp only [merge, hfind, if_neg hand] at h
    cases hunite : existing.unite? c.condition with
    | some united =>
      simp only [hunite, Except.ok.injEq] at h
      subst h
      exact .united hand hfind hunite
    | none =>
      simp only [hunite] at h
      by_cases hor : c.key = "$or"
      · rw [if_pos hor] at h
        exact .repeated hor hfind hunite h
      · rw [if_neg hor] at h
        exact .moved ⟨hand, hor⟩ hfind hunite h

/-- Only the conditions under its own key and under `$and` change when a clause is
merged. -/
theorem find?_merge_of_ne {q' : Query} {c : Clause} {name : String} (hname : name ≠ c.key)
    (hand : name ≠ "$and") (h : q.merge c = .ok q') : q'.find? name = q.find? name := by
  cases merges_of_merge h with
  | added => simp [find?_add, hname.symm]
  | extended _ _ hconjoin => exact (find?_conjoin hconjoin).2 name hand
  | united => simp [find?_replace, hname]
  | repeated _ _ _ hconjoin => exact (find?_conjoin hconjoin).2 name hand
  | moved _ _ _ hconjoin =>
    rw [(find?_conjoin hconjoin).2 name hand, find?_erase, if_neg hname]

/-! ## Parts of changed queries -/

theorem parts_add : (q.add key condition).parts = q.parts ++ (Clause.mk key condition).parts := by
  simp [parts, add]

theorem parts_perm_erase (hnodup : q.keys.Nodup) (h : q.find? key = some condition) :
    q.parts ~ (Clause.mk key condition).parts ++ (q.erase key).parts := by
  simpa [parts] using (entries_perm_erase hnodup h).flatMap_right
    fun entry => (Clause.mk entry.1 entry.2).parts

theorem parts_replace (hnodup : q.keys.Nodup) (h : q.find? key = some condition) (new : Value) :
    (q.replace key new).parts ~ (Clause.mk key new).parts ++ (q.erase key).parts := by
  have hfind : (q.replace key new).find? key = some new := by
    rw [find?_replace, if_pos rfl, h]
    rfl
  have hperm := parts_perm_erase (by rw [keys_replace]; exact hnodup) hfind
  rwa [erase_replace] at hperm

namespace Regular

theorem empty : Regular Query.empty := by
  constructor
  · exact List.nodup_nil
  · intro entry hentry
    contradiction

theorem of_find? (hq : q.Regular) (h : q.find? key = some condition) :
    (Clause.mk key condition).Regular :=
  hq.lists (key, condition) (mem_entries_of_find? h)

theorem add (hq : q.Regular) (h : q.find? key = none)
    (hcondition : (Clause.mk key condition).Regular) : (q.add key condition).Regular := by
  constructor
  · have hkey : key ∉ q.keys := not_mem_keys_of_find? h
    simp only [keys, Query.add, List.map_append, List.map_cons, List.map_nil]
    rw [List.nodup_append]
    refine ⟨hq.nodup_keys, by simp, ?_⟩
    intro name hname other hother heq
    rw [List.mem_singleton.mp hother] at heq
    exact hkey (heq ▸ hname)
  · exact forall_entries_add hq.lists hcondition

theorem replace (hq : q.Regular) (hcondition : (Clause.mk key condition).Regular) :
    (q.replace key condition).Regular := by
  constructor
  · rw [keys_replace]
    exact hq.nodup_keys
  · exact forall_entries_replace hq.lists hcondition

theorem erase (hq : q.Regular) (key : String) : (q.erase key).Regular := by
  constructor
  · exact hq.nodup_keys.sublist (List.filter_sublist.map Prod.fst)
  · intro entry hentry
    exact hq.lists entry (List.mem_filter.mp hentry).1

theorem conjoin (hq : q.Regular) {clauses : List Value} {q' : Query}
    (h : q.conjoin clauses = .ok q') :
    q'.Regular ∧ q'.parts ~ q.parts ++ clauses.flatMap Value.split := by
  have hlist : ∀ items, (Clause.mk "$and" (.list items)).Regular := fun items _ => ⟨items, rfl⟩
  rcases conjoin_eq_ok h with ⟨hfind, rfl⟩ | ⟨items, hfind, rfl⟩
  · refine ⟨hq.add hfind (hlist _), ?_⟩
    rw [parts_add, Clause.parts_conjunction]
  · refine ⟨hq.replace (hlist _), ?_⟩
    have hbefore := parts_perm_erase hq.nodup_keys hfind
    have hafter := parts_replace hq.nodup_keys hfind (.list (items ++ clauses))
    rw [Clause.parts_conjunction] at hbefore hafter
    rw [List.flatMap_append, List.append_assoc] at hafter
    calc
      (q.replace "$and" (.list (items ++ clauses))).parts
          ~ items.flatMap Value.split ++
            (clauses.flatMap Value.split ++ (q.erase "$and").parts) := hafter
      _ ~ items.flatMap Value.split ++
            ((q.erase "$and").parts ++ clauses.flatMap Value.split) :=
        List.perm_append_comm.append_left _
      _ ~ q.parts ++ clauses.flatMap Value.split := by
        rw [← List.append_assoc]
        exact hbefore.symm.append_right _

theorem replace_unite (hq : q.Regular) {c : Clause} {existing united : Value}
    (hfind : q.find? c.key = some existing)
    (hunite : existing.unite? c.condition = some united) :
    (q.replace c.key united).Regular ∧
      (q.replace c.key united).parts ~ q.parts ++ c.parts := by
  obtain ⟨es, fs, hes, hfs, hunited⟩ := Value.unite?_eq_some hunite
  have hregular : (Clause.mk c.key united).Regular := by
    intro hconnective
    obtain ⟨clauses, hclauses⟩ := hq.of_find? hfind hconnective
    simp only at hclauses
    rw [hclauses] at hes
    contradiction
  refine ⟨hq.replace hregular, ?_⟩
  have hbefore := parts_perm_erase hq.nodup_keys hfind
  have hafter := parts_replace hq.nodup_keys hfind united
  rw [Clause.parts_of_operators? (c := ⟨c.key, existing⟩) hes] at hbefore
  rw [Clause.parts_of_operators? (c := ⟨c.key, united⟩) hunited, List.map_append,
    ← Clause.parts_of_operators? hfs, List.append_assoc] at hafter
  calc
    (q.replace c.key united).parts
        ~ es.map _ ++ (c.parts ++ (q.erase c.key).parts) := hafter
    _ ~ es.map _ ++ ((q.erase c.key).parts ++ c.parts) :=
      List.perm_append_comm.append_left _
    _ ~ q.parts ++ c.parts := by
      rw [← List.append_assoc]
      exact hbefore.symm.append_right _

/-- Moving two clashing conditions under `$and` keeps the parts of both. -/
theorem erase_conjoin (hq : q.Regular) {c : Clause} {existing : Value} {q' : Query}
    (hfind : q.find? c.key = some existing) (hkey : c.key ≠ "$and")
    (h : (q.erase c.key).conjoin [(Clause.mk c.key existing).toValue, c.toValue] = .ok q') :
    q'.Regular ∧ q'.parts ~ q.parts ++ c.parts := by
  rcases (hq.erase c.key).conjoin h with ⟨hregular, hparts⟩
  refine ⟨hregular, ?_⟩
  have hbefore := parts_perm_erase hq.nodup_keys hfind
  simp only [List.flatMap_cons, List.flatMap_nil, List.append_nil] at hparts
  rw [← Clause.parts_of_ne (c := ⟨c.key, existing⟩) hkey, ← Clause.parts_of_ne hkey,
    ← List.append_assoc] at hparts
  calc
    q'.parts
        ~ (q.erase c.key).parts ++ (Clause.mk c.key existing).parts ++ c.parts := hparts
    _ ~ (Clause.mk c.key existing).parts ++ (q.erase c.key).parts ++ c.parts :=
      List.perm_append_comm.append_right _
    _ ~ q.parts ++ c.parts := hbefore.symm.append_right _

/-- A regular clause that joins a regular query leaves it regular, with the parts of
both. -/
theorem merge (hq : q.Regular) {c : Clause} {q' : Query} (hc : c.Regular)
    (h : q.merge c = .ok q') : q'.Regular ∧ q'.parts ~ q.parts ++ c.parts := by
  cases merges_of_merge h with
  | added hfind =>
    refine ⟨hq.add hfind hc, ?_⟩
    rw [parts_add]
  | @extended _ clauses hand hclauses hconjoin =>
    rcases hc (.inl hand) with ⟨items, hlist⟩
    rw [hlist, Value.elements?] at hclauses
    cases hclauses
    have hparts : c.parts = clauses.flatMap Value.split := by
      simp [Clause.parts, hand, hlist]
    rw [hparts]
    exact hq.conjoin hconjoin
  | united _ hfind hunite => exact hq.replace_unite hfind hunite
  | repeated hor _ _ hconjoin =>
    have hparts : c.parts = [c.toValue].flatMap Value.split := by
      rw [Clause.parts_of_ne (by simp [hor])]
      simp
    rw [hparts]
    exact hq.conjoin hconjoin
  | moved hkey hfind _ hconjoin => exact hq.erase_conjoin hfind hkey.1 hconjoin

end Regular

end Query

end DocScan
