import DocScan.Query.Compilation
import Mathlib.Tactic

/-!
# What the patterns of text tests find

A text test is compiled to a pattern, and a pattern is searched for anywhere in a
text.  In it `^` stands for the start of the text, `$` for its end or for the
place before a newline that ends it, `.` for any character but a newline, and `*`
for a run of what is before it; other metacharacters have no reading here.

Around a value without metacharacters, the pattern of a containment finds exactly
the texts that contain the value.  The other two test more than where the value
stands: what follows a value that a text is to start with, and what comes before
one that it is to end with, has to be on one line, and a newline may end the text
in either case.
-/

namespace DocScan

/-! ## Patterns -/

namespace Pattern

/-- The characters that can stand at a place. -/
inductive Characters where
  | exactly (c : Char)
  | notNewline
  deriving DecidableEq

def Characters.accepts : Characters → Char → Bool
  | .exactly c, d => d = c
  | .notNewline, d => d ≠ '\n'

/-- What a pattern is made of: the two ends of a text, a single character, and a
run of characters. -/
inductive Element where
  | start
  | finish
  | one (k : Characters)
  | many (k : Characters)
  deriving DecidableEq

/-- A text cut in two. -/
structure Cut where
  before : List Char
  after : List Char
  deriving DecidableEq

/-- The cuts that runs of accepted characters lead to, the empty run first. -/
def runs (accepts : Char → Bool) (before : List Char) : List Char → List Cut
  | [] => [⟨before, []⟩]
  | c :: after =>
    ⟨before, c :: after⟩ :: if accepts c then runs accepts (before ++ [c]) after else []

/-- The cuts that an element leads to from another one. -/
def Element.ends : Element → Cut → List Cut
  | .start, cut => if cut.before = [] then [cut] else []
  | .finish, cut => if cut.after = [] ∨ cut.after = ['\n'] then [cut] else []
  | .one k, ⟨before, c :: after⟩ => if k.accepts c then [⟨before ++ [c], after⟩] else []
  | .one _, ⟨_, []⟩ => []
  | .many k, cut => runs k.accepts cut.before cut.after

/-- The characters that have a meaning of their own in a pattern. -/
def metacharacters : List Char :=
  ['\\', '^', '$', '.', '[', '|', '(', ')', '?', '*', '+', '\x7b']

def Characters.ofChar? (c : Char) : Option Characters :=
  if c = '.' then some .notNewline
  else if c ∈ metacharacters then none
  else some (.exactly c)

end Pattern

/-- A pattern: its elements in order. -/
abbrev Pattern := List Pattern.Element

namespace Pattern

/-- The pattern that is written with the given characters. -/
def ofCharacters? : List Char → Option Pattern
  | [] => some []
  | '^' :: rest => do return .start :: (← ofCharacters? rest)
  | '$' :: rest => do return .finish :: (← ofCharacters? rest)
  | c :: '*' :: rest => do return .many (← Characters.ofChar? c) :: (← ofCharacters? rest)
  | c :: rest => do return .one (← Characters.ofChar? c) :: (← ofCharacters? rest)

/-- The cuts that a pattern leads to from a cut. -/
def ends : Pattern → Cut → List Cut
  | [], cut => [cut]
  | e :: rest, cut => (e.ends cut).flatMap (ends rest)

/-- Whether a pattern is found anywhere in a text. -/
def occursIn (p : Pattern) (s : String) : Bool :=
  (runs (fun _ => true) [] s.toList).any fun cut => !(p.ends cut).isEmpty

/-- The characters of a text without metacharacters stand for themselves. -/
def literal (v : List Char) : Pattern := v.map fun c => .one (.exactly c)

end Pattern

/-- A filter is compiled to a pattern for a field and to nothing else. -/
def Filter.HasPattern (f : Filter) (field : String) (p : Pattern) : Prop :=
  ∃ text : String, Pattern.ofCharacters? text.toList = some p ∧ ∀ idField,
    Query.ofFilters idField [f] = .ok ⟨[(field, .dict [(.text "$regex", .text text)])]⟩

namespace Pattern

variable {v : List Char} {p q : Pattern} {cut other : Cut} {s : String}

/-! ## Where elements lead -/

theorem mem_runs {accepts : Char → Bool} {before after : List Char} :
    cut ∈ runs accepts before after ↔
      ∃ run rest, (∀ c ∈ run, accepts c = true) ∧ after = run ++ rest ∧
        cut = ⟨before ++ run, rest⟩ := by
  induction after generalizing before with
  | nil =>
    rw [runs, List.mem_singleton]
    constructor
    · rintro rfl
      exact ⟨[], [], List.forall_mem_nil _, rfl, by rw [List.append_nil]⟩
    · rintro ⟨run, rest, -, hafter, rfl⟩
      obtain ⟨rfl, rfl⟩ := List.append_eq_nil_iff.mp hafter.symm
      rw [List.append_nil]
  | cons c after ih =>
    rw [runs, List.mem_cons]
    constructor
    · rintro (rfl | hmem)
      · exact ⟨[], c :: after, List.forall_mem_nil _, rfl, by rw [List.append_nil]⟩
      · split at hmem
        · rename_i haccepts
          obtain ⟨run, rest, hrun, rfl, rfl⟩ := ih.mp hmem
          refine ⟨c :: run, rest, List.forall_mem_cons.mpr ⟨haccepts, hrun⟩, rfl, ?_⟩
          rw [List.append_assoc, List.singleton_append]
        · contradiction
    · rintro ⟨run, rest, hrun, hafter, rfl⟩
      cases run with
      | nil =>
        left
        rw [List.append_nil, hafter, List.nil_append]
      | cons d run =>
        rw [List.cons_append, List.cons.injEq] at hafter
        obtain ⟨rfl, rfl⟩ := hafter
        rw [List.forall_mem_cons] at hrun
        right
        rw [if_pos hrun.1]
        refine ih.mpr ⟨run, rest, hrun.2, rfl, ?_⟩
        rw [List.append_assoc, List.singleton_append]

theorem mem_ends_exactly {c : Char} :
    other ∈ (Element.one (.exactly c)).ends cut ↔
      ∃ rest, cut.after = c :: rest ∧ other = ⟨cut.before ++ [c], rest⟩ := by
  obtain ⟨before, after⟩ := cut
  cases after with
  | nil => simp [Element.ends]
  | cons d after =>
    simp only [Element.ends, Characters.accepts, decide_eq_true_eq, List.mem_ite_nil_right,
      List.mem_singleton, List.cons.injEq]
    constructor
    · rintro ⟨rfl, rfl⟩
      exact ⟨after, ⟨rfl, rfl⟩, rfl⟩
    · rintro ⟨rest, ⟨rfl, rfl⟩, rfl⟩
      exact ⟨rfl, rfl⟩

theorem mem_ends_line :
    other ∈ (Element.many .notNewline).ends cut ↔
      ∃ line rest, '\n' ∉ line ∧ cut.after = line ++ rest ∧
        other = ⟨cut.before ++ line, rest⟩ := by
  have hline : ∀ line : List Char,
      (∀ c ∈ line, Characters.notNewline.accepts c = true) ↔ '\n' ∉ line := by
    intro line
    simp only [Characters.accepts, decide_eq_true_eq]
    constructor
    · intro hall hmem
      exact hall _ hmem rfl
    · rintro hnone c hc rfl
      exact hnone hc
  simp only [Element.ends, mem_runs, hline]

/-! ## Where patterns lead -/

theorem mem_ends_nil : other ∈ ends [] cut ↔ other = cut := List.mem_singleton

theorem mem_ends_cons {e : Element} :
    other ∈ ends (e :: p) cut ↔ ∃ next ∈ e.ends cut, other ∈ ends p next := by
  rw [ends, List.mem_flatMap]

theorem mem_ends_start_cons :
    other ∈ ends (.start :: p) cut ↔ cut.before = [] ∧ other ∈ ends p cut := by
  by_cases hstart : cut.before = [] <;> simp [mem_ends_cons, Element.ends, hstart]

/-- What can stand behind the last line of a text. -/
def IsLineEnd (last : List Char) : Prop := last = [] ∨ last = ['\n']

theorem mem_ends_finish :
    other ∈ ends [.finish] cut ↔ IsLineEnd cut.after ∧ other = cut := by
  unfold IsLineEnd
  by_cases hend : cut.after = [] ∨ cut.after = ['\n'] <;>
    simp [mem_ends_cons, mem_ends_nil, Element.ends, hend]

theorem mem_ends_line_cons :
    other ∈ ends (.many .notNewline :: p) cut ↔
      ∃ line rest, '\n' ∉ line ∧ cut.after = line ++ rest ∧
        other ∈ ends p ⟨cut.before ++ line, rest⟩ := by
  rw [mem_ends_cons]
  simp only [mem_ends_line]
  constructor
  · rintro ⟨_, ⟨line, rest, hline, hafter, rfl⟩, hother⟩
    exact ⟨line, rest, hline, hafter, hother⟩
  · rintro ⟨line, rest, hline, hafter, hother⟩
    exact ⟨_, ⟨line, rest, hline, hafter, rfl⟩, hother⟩

/-- A literal leads past its characters. -/
theorem mem_ends_literal_append :
    other ∈ ends (literal v ++ p) cut ↔
      ∃ rest, cut.after = v ++ rest ∧ other ∈ ends p ⟨cut.before ++ v, rest⟩ := by
  induction v generalizing cut with
  | nil => simp [literal]
  | cons c v ih =>
    have hcons : literal (c :: v) ++ p = .one (.exactly c) :: (literal v ++ p) := rfl
    simp only [hcons, mem_ends_cons, mem_ends_exactly, ih]
    constructor
    · rintro ⟨_, ⟨_, hafter, rfl⟩, rest, rfl, hother⟩
      refine ⟨rest, hafter, ?_⟩
      simpa using hother
    · rintro ⟨rest, hafter, hother⟩
      refine ⟨⟨cut.before ++ [c], v ++ rest⟩, ⟨v ++ rest, hafter, rfl⟩, rest, rfl, ?_⟩
      simpa using hother

theorem occursIn_iff :
    p.occursIn s = true ↔
      ∃ before after, s.toList = before ++ after ∧ ∃ cut, cut ∈ ends p ⟨before, after⟩ := by
  simp only [occursIn, List.any_eq_true, mem_runs, List.nil_append]
  constructor
  · rintro ⟨_, ⟨before, after, -, hs, rfl⟩, hends⟩
    exact ⟨before, after, hs, List.exists_mem_of_ne_nil _ (by simpa using hends)⟩
  · rintro ⟨before, after, hs, cut, hcut⟩
    refine ⟨⟨before, after⟩, ⟨before, after, by simp, hs, rfl⟩, ?_⟩
    simpa using List.ne_nil_of_mem hcut

/-! ## How patterns are read -/

theorem ofCharacters?_cons {c : Char} {rest : List Char} (hc : c ∉ metacharacters)
    (hrest : rest.head? ≠ some '*') :
    ofCharacters? (c :: rest) = (ofCharacters? rest).map (.one (.exactly c) :: ·) := by
  have hclass : Characters.ofChar? c = some (.exactly c) := by
    have hdot : c ≠ '.' := by
      rintro rfl
      exact hc (by decide)
    rw [Characters.ofChar?, if_neg hdot, if_neg hc]
  rw [ofCharacters?, hclass]
  · cases ofCharacters? rest <;> rfl
  · rintro rfl
    exact hc (by decide)
  · rintro rfl
    exact hc (by decide)
  · rintro tail rfl
    exact hrest rfl

/-- A value without metacharacters is read as itself. -/
theorem ofCharacters?_append {rest : List Char} (hv : ∀ c ∈ v, c ∉ metacharacters)
    (hrest : rest.head? ≠ some '*') :
    ofCharacters? (v ++ rest) = (ofCharacters? rest).map (literal v ++ ·) := by
  induction v with
  | nil => simp [literal]
  | cons c v ih =>
    rw [List.forall_mem_cons] at hv
    have htail : (v ++ rest).head? ≠ some '*' := by
      cases v with
      | nil => exact hrest
      | cons d v =>
        intro hstar
        obtain rfl : d = '*' := by simpa using hstar
        exact hv.2 '*' List.mem_cons_self (by decide)
    rw [List.cons_append, ofCharacters?_cons hv.1 htail, ih hv.2, Option.map_map]
    rfl

/-! ## The patterns of text tests -/

def startingWith (v : List Char) : Pattern :=
  .start :: (literal v ++ [.many .notNewline, .finish])

def endingWith (v : List Char) : Pattern :=
  .start :: .many .notNewline :: (literal v ++ [.finish])

def containing (v : List Char) : Pattern :=
  .many .notNewline :: (literal v ++ [.many .notNewline])

theorem occursIn_startingWith :
    (startingWith v).occursIn s = true ↔
      ∃ line last, s.toList = v ++ line ++ last ∧ '\n' ∉ line ∧ IsLineEnd last := by
  simp only [occursIn_iff, startingWith, mem_ends_start_cons, mem_ends_literal_append,
    mem_ends_line_cons, mem_ends_finish]
  constructor
  · rintro ⟨_, _, hs, _, rfl, _, rfl, line, last, hline, rfl, hlast, -⟩
    exact ⟨line, last, by simpa using hs, hline, hlast⟩
  · rintro ⟨line, last, hs, hline, hlast⟩
    refine ⟨[], v ++ line ++ last, hs, _, rfl, line ++ last, ?_, line, last, hline, rfl, hlast, rfl⟩
    rw [List.append_assoc]

theorem occursIn_endingWith :
    (endingWith v).occursIn s = true ↔
      ∃ line last, s.toList = line ++ v ++ last ∧ '\n' ∉ line ∧ IsLineEnd last := by
  simp only [occursIn_iff, endingWith, mem_ends_start_cons, mem_ends_literal_append,
    mem_ends_line_cons, mem_ends_finish]
  constructor
  · rintro ⟨_, _, hs, _, rfl, line, _, hline, rfl, last, rfl, hlast, -⟩
    exact ⟨line, last, by simpa using hs, hline, hlast⟩
  · rintro ⟨line, last, hs, hline, hlast⟩
    refine ⟨[], line ++ v ++ last, hs, _, rfl, line, v ++ last, hline, ?_, last, rfl, hlast, rfl⟩
    rw [List.append_assoc]

theorem occursIn_containing : (containing v).occursIn s = true ↔ v <:+: s.toList := by
  simp only [occursIn_iff, containing, mem_ends_literal_append, mem_ends_line_cons, mem_ends_nil]
  constructor
  · rintro ⟨before, _, hs, _, line, _, -, rfl, _, rfl, line', last, -, rfl, -⟩
    exact ⟨before ++ line, line' ++ last, by simpa using hs.symm⟩
  · rintro ⟨before, after, hs⟩
    -- both runs can be empty, as the search tries every place
    refine ⟨before, v ++ after, ?_, _, [], v ++ after, List.not_mem_nil, rfl, after, rfl, [],
      after, List.not_mem_nil, rfl, rfl⟩
    rw [← hs, List.append_assoc]

/-! ## Texts of one line -/

theorem exists_line_of_startsWith {text : List Char} (h : '\n' ∉ text) :
    (∃ line last, text = v ++ line ++ last ∧ '\n' ∉ line ∧ IsLineEnd last) ↔ v <+: text := by
  constructor
  · rintro ⟨line, last, rfl, -, -⟩
    exact ⟨line ++ last, by rw [List.append_assoc]⟩
  · rintro ⟨line, rfl⟩
    have hline : '\n' ∉ line := fun hmem => h (List.mem_append_right v hmem)
    exact ⟨line, [], by rw [List.append_nil], hline, .inl rfl⟩

theorem exists_line_of_endsWith {text : List Char} (h : '\n' ∉ text) :
    (∃ line last, text = line ++ v ++ last ∧ '\n' ∉ line ∧ IsLineEnd last) ↔ v <:+ text := by
  constructor
  · rintro ⟨line, last, rfl, -, rfl | rfl⟩
    · exact ⟨line, by rw [List.append_nil]⟩
    · exact absurd (List.mem_append_right _ (List.mem_singleton_self _)) h
  · rintro ⟨line, rfl⟩
    have hline : '\n' ∉ line := fun hmem => h (List.mem_append_left v hmem)
    exact ⟨line, [], by rw [List.append_nil], hline, .inl rfl⟩

end Pattern

/-! ## Text tests -/

namespace Filter

variable {field v : String} {f : Filter}

theorem HasPattern.unique {p q : Pattern} (hp : f.HasPattern field p) (hq : f.HasPattern field q) :
    p = q := by
  obtain ⟨text, hread, hquery⟩ := hp
  obtain ⟨text', hread', hquery'⟩ := hq
  have hsame := (hquery defaultIdField).symm.trans (hquery' defaultIdField)
  simp only [Except.ok.injEq, Query.mk.injEq, List.cons.injEq, Prod.mk.injEq, Value.dict.injEq,
    Value.text.injEq, true_and, and_true] at hsame
  rw [hsame, hread'] at hread
  exact (Option.some.inj hread).symm

theorem hasPattern_startsWith (hv : ∀ c ∈ v.toList, c ∉ Pattern.metacharacters) :
    (Filter.test .startsWith field (.text v)).HasPattern field (.startingWith v.toList) := by
  have htext : ("^" ++ v ++ ".*$").toList = '^' :: (v.toList ++ ['.', '*', '$']) := by
    simp [String.toList_append]
  have hrest : Pattern.ofCharacters? ['.', '*', '$'] = some [.many .notNewline, .finish] := rfl
  refine ⟨"^" ++ v ++ ".*$", ?_, fun _ => rfl⟩
  rw [htext, Pattern.ofCharacters?, Pattern.ofCharacters?_append hv (by simp), hrest]
  rfl

theorem hasPattern_endsWith (hv : ∀ c ∈ v.toList, c ∉ Pattern.metacharacters) :
    (Filter.test .endsWith field (.text v)).HasPattern field (.endingWith v.toList) := by
  have htext : ("^.*" ++ v ++ "$").toList = '^' :: '.' :: '*' :: (v.toList ++ ['$']) := by
    simp [String.toList_append]
  have hrest : Pattern.ofCharacters? ['$'] = some [.finish] := rfl
  refine ⟨"^.*" ++ v ++ "$", ?_, fun _ => rfl⟩
  rw [htext, Pattern.ofCharacters?, Pattern.ofCharacters?,
    Pattern.ofCharacters?_append hv (by simp), hrest]
  · rfl
  · decide
  · decide

theorem hasPattern_contains (hv : ∀ c ∈ v.toList, c ∉ Pattern.metacharacters) :
    (Filter.test .contains field (.text v)).HasPattern field (.containing v.toList) := by
  have htext : (".*" ++ v ++ ".*").toList = '.' :: '*' :: (v.toList ++ ['.', '*']) := by
    simp [String.toList_append]
  have hrest : Pattern.ofCharacters? ['.', '*'] = some [.many .notNewline] := rfl
  refine ⟨".*" ++ v ++ ".*", ?_, fun _ => rfl⟩
  rw [htext, Pattern.ofCharacters?, Pattern.ofCharacters?_append hv (by simp), hrest]
  · rfl
  · decide
  · decide

/-- The patterns of the three text tests of a value without metacharacters.  A
containment finds the texts that contain the value.  What follows a value that a text
starts with, and what precedes one that it ends with, is on one line, but for a
newline at the end of the text; so these two mean what they say in texts of one
line. -/
theorem pattern_occursIn_iff (field v : String)
    (hv : ∀ c ∈ v.toList, c ∉ Pattern.metacharacters) :
    (∃ p, (Filter.test .startsWith field (.text v)).HasPattern field p ∧ ∀ s : String,
      (p.occursIn s = true ↔ ∃ line last, s.toList = v.toList ++ line ++ last ∧
        '\n' ∉ line ∧ Pattern.IsLineEnd last) ∧
      ('\n' ∉ s.toList → (p.occursIn s = true ↔ v.toList <+: s.toList))) ∧
    (∃ p, (Filter.test .endsWith field (.text v)).HasPattern field p ∧ ∀ s : String,
      (p.occursIn s = true ↔ ∃ line last, s.toList = line ++ v.toList ++ last ∧
        '\n' ∉ line ∧ Pattern.IsLineEnd last) ∧
      ('\n' ∉ s.toList → (p.occursIn s = true ↔ v.toList <:+ s.toList))) ∧
    ∃ p, (Filter.test .contains field (.text v)).HasPattern field p ∧ ∀ s : String,
      p.occursIn s = true ↔ v.toList <:+: s.toList := by
  refine ⟨?starts, ?ends, ?contains⟩
  case starts =>
    refine ⟨_, hasPattern_startsWith hv, fun s => ⟨Pattern.occursIn_startingWith, ?_⟩⟩
    intro hline
    rw [Pattern.occursIn_startingWith, Pattern.exists_line_of_startsWith hline]
  case ends =>
    refine ⟨_, hasPattern_endsWith hv, fun s => ⟨Pattern.occursIn_endingWith, ?_⟩⟩
    intro hline
    rw [Pattern.occursIn_endingWith, Pattern.exists_line_of_endsWith hline]
  case contains =>
    exact ⟨_, hasPattern_contains hv, fun _ => Pattern.occursIn_containing⟩

/-- A value that spans two lines starts a text that ends with a newline, and it is
contained in a text of three lines. -/
theorem pattern_occursIn_iff_two_lines :
    (∀ c ∈ "a\nb".toList, c ∉ Pattern.metacharacters) ∧
      (∃ p, (Filter.test .startsWith "name" (.text "a\nb")).HasPattern "name" p ∧
        p.occursIn "a\nbc\n" = true) ∧
      ∃ p, (Filter.test .contains "name" (.text "a\nb")).HasPattern "name" p ∧
        p.occursIn "c\na\nb" = true := by
  have hv : ∀ c ∈ "a\nb".toList, c ∉ Pattern.metacharacters := by
    simp [Pattern.metacharacters]
  obtain ⟨⟨p, hp, hstarts⟩, -, q, hq, hcontains⟩ := pattern_occursIn_iff "name" "a\nb" hv
  refine ⟨hv, ⟨p, hp, ?_⟩, q, hq, ?_⟩
  · exact (hstarts _).1.mpr ⟨['c'], ['\n'], rfl, by decide, .inr rfl⟩
  · exact (hcontains _).mpr ⟨['c', '\n'], [], rfl⟩

/-- In a text of two lines that starts with a value, or that ends with it, the value is
not found. -/
theorem pattern_misses_second_line :
    (¬ ∀ field v s : String, (∀ c ∈ v.toList, c ∉ Pattern.metacharacters) →
      ∃ p, (Filter.test .startsWith field (.text v)).HasPattern field p ∧
        (p.occursIn s = true ↔ v.toList <+: s.toList)) ∧
    ¬ ∀ field v s : String, (∀ c ∈ v.toList, c ∉ Pattern.metacharacters) →
      ∃ p, (Filter.test .endsWith field (.text v)).HasPattern field p ∧
        (p.occursIn s = true ↔ v.toList <:+ s.toList) := by
  have hv : ∀ c ∈ "b".toList, c ∉ Pattern.metacharacters := by
    simp [Pattern.metacharacters]
  constructor
  · intro hall
    obtain ⟨p, hp, hfound⟩ := hall "name" "b" "b\nc" hv
    rw [hp.unique (hasPattern_startsWith hv)] at hfound
    exact absurd (hfound.mpr ⟨['\n', 'c'], rfl⟩) (by decide)
  · intro hall
    obtain ⟨p, hp, hfound⟩ := hall "name" "b" "a\nb" hv
    rw [hp.unique (hasPattern_endsWith hv)] at hfound
    exact absurd (hfound.mpr ⟨['a', '\n'], rfl⟩) (by decide)

end Filter

end DocScan
