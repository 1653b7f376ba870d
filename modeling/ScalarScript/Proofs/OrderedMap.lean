import ScalarScript.Proofs.Table

/-!
# The function table as an ordered map

A client knows a module by the requests that it can make and the answers that it gets: declare a
function, define it, drop its body, erase it, or overwrite its parameters.  Under these requests
a module cannot be told from a map that gives each name at most one entry and remembers in which
order the names came.  The map is a function and a list of names, so that a change of one entry
says nothing about the others; the table is a list of functions that every request searches.
-/

namespace ScalarScript

/-! ## Ordered maps -/

/-- A map from names to values that remembers the order in which its names came. -/
structure OrderedMap (α : Type) where
  /-- The names that have a value, in the order in which they came. -/
  names : List String
  /-- The value of a name. -/
  value? : String → Option α
  distinct : names.Nodup
  mem_names : ∀ name, name ∈ names ↔ (value? name).isSome = true

namespace OrderedMap

variable {α : Type}

/-- The map without names. -/
def empty : OrderedMap α where
  names := []
  value? := fun _ => none
  distinct := List.nodup_nil
  mem_names := fun _ => iff_of_false List.not_mem_nil Bool.false_ne_true

/-- The names when one of them has a value: if it had none before, then it comes last. -/
def namesWith (map : OrderedMap α) (name : String) : List String :=
  if (map.value? name).isSome then map.names else map.names ++ [name]

theorem nodup_namesWith
    (map : OrderedMap α)
    (name : String) :
    (map.namesWith name).Nodup := by
  unfold namesWith
  split
  next => exact map.distinct
  next absent =>
    rw [← map.mem_names] at absent
    refine List.nodup_append.2 ⟨map.distinct, List.nodup_singleton _, ?_⟩
    intro other member new isName same
    rw [same, List.mem_singleton.1 isName] at member
    exact absent member

theorem mem_namesWith
    (map : OrderedMap α)
    (name : String)
    (value : α)
    (other : String) :
    other ∈ map.namesWith name ↔
      (if other = name then some value else map.value? other).isSome = true := by
  unfold namesWith
  by_cases same : other = name
  · subst same
    by_cases present : (map.value? other).isSome = true
    · simp [present, (map.mem_names other).2 present]
    · simp [present]
  · by_cases present : (map.value? name).isSome = true
    · simp [present, same, map.mem_names]
    · simp [present, same, map.mem_names]

/-- Gives a value to a name.  A name that has a value already keeps its place. -/
def write (map : OrderedMap α) (name : String) (value : α) : OrderedMap α where
  names := map.namesWith name
  value? := fun other => if other = name then some value else map.value? other
  distinct := map.nodup_namesWith name
  mem_names := map.mem_namesWith name value

theorem mem_filter_ne
    (map : OrderedMap α)
    (name other : String) :
    other ∈ map.names.filter (· ≠ name) ↔
      (if other = name then none else map.value? other).isSome = true := by
  by_cases same : other = name
  · simp [same]
  · simp [same, map.mem_names]

/-- Takes the value of a name away. -/
def remove (map : OrderedMap α) (name : String) : OrderedMap α where
  names := map.names.filter (· ≠ name)
  value? := fun other => if other = name then none else map.value? other
  distinct := map.distinct.filter _
  mem_names := map.mem_filter_ne name

/-- Two maps that differ at most in one name: all others have their values and stand in the
same order. -/
structure SameBut (name : String) (before after : OrderedMap α) : Prop where
  value? : ∀ other, other ≠ name → after.value? other = before.value? other
  names : after.names.filter (· ≠ name) = before.names.filter (· ≠ name)

theorem SameBut.refl
    (name : String)
    (map : OrderedMap α) :
    SameBut name map map where
  value? := fun _ _ => rfl
  names := rfl

theorem sameBut_write
    (map : OrderedMap α)
    (name : String)
    (value : α) :
    SameBut name map (map.write name value) where
  value? := fun _ different => if_neg different
  names := by
    simp only [write, namesWith]
    split
    next => rfl
    next => simp

theorem sameBut_remove
    (map : OrderedMap α)
    (name : String) :
    SameBut name map (map.remove name) where
  value? := fun _ different => if_neg different
  names := by simp [remove]

end OrderedMap

namespace Code

/-! ## Requests -/

/-- A request to change what a module knows of one name. -/
inductive Edit where
  | declare (name : String) (params : List String)
  | define (name : String) (body : Body)
  | discard (name : String)
  | erase (name : String)
  | overwrite (name : String) (params : List String)

namespace Edit

/-- The name that the request is about. -/
def name : Edit → String
  | .declare name _ => name
  | .define name _ => name
  | .discard name => name
  | .erase name => name
  | .overwrite name _ => name

end Edit

/-- The answer to a request. -/
inductive Reply where
  /-- The function that was declared, erased or changed, if there is one. -/
  | function (found : Option Function)
  /-- Whether the body was attached. -/
  | attached (done : Bool)
  /-- The body that was dropped, if there was one. -/
  | dropped (body : Option Body)

/-- Makes requests one after the other and collects the answers. -/
def serveAll {σ : Type} (serve : σ → Edit → Reply × σ) (state : σ) : List Edit → List Reply × σ
  | [] => ([], state)
  | edit :: edits =>
      let served := serve state edit
      let others := serveAll serve served.2 edits
      (served.1 :: others.1, others.2)

namespace Module

/-- Serves a request. -/
def serve (table : Module) : Edit → Reply × Module
  | .declare name params =>
      let declared := table.declare name params
      (.function (declared.find? name), declared)
  | .define name body =>
      let defined := table.define? name body
      (.attached defined.isSome, defined.getD table)
  | .discard name => (.dropped ((table.find? name).bind Function.body), table.discard name)
  | .erase name => (.function (table.find? name), table.erase name)
  | .overwrite name params =>
      let overwritten := table.setParams name params
      (.function (overwritten.find? name), overwritten)

end Module

/-- What a name stands for: the parameters of a function and perhaps a body. -/
structure Entry where
  params : List String
  body : Option Body

namespace Entry

/-- The function of the given name that an entry describes. -/
def function (name : String) (entry : Entry) : Function :=
  ⟨name, entry.params, entry.body⟩

/-- Serves a request on a map of entries. -/
def serve (map : OrderedMap Entry) : Edit → Reply × OrderedMap Entry
  | .declare name params =>
      match map.value? name with
      | some entry => (.function (some (entry.function name)), map)
      | none => (.function (some ⟨name, params, none⟩), map.write name ⟨params, none⟩)
  | .define name body =>
      match map.value? name with
      | some ⟨params, none⟩ => (.attached true, map.write name ⟨params, some body⟩)
      | some ⟨_, some _⟩ => (.attached false, map)
      | none => (.attached false, map)
  | .discard name =>
      match map.value? name with
      | some ⟨params, some body⟩ => (.dropped (some body), map.write name ⟨params, none⟩)
      | some ⟨_, none⟩ => (.dropped none, map)
      | none => (.dropped none, map)
  | .erase name => (.function ((map.value? name).map (function name)), map.remove name)
  | .overwrite name params =>
      match map.value? name with
      | some ⟨_, body⟩ => (.function (some ⟨name, params, body⟩), map.write name ⟨params, body⟩)
      | none => (.function none, map)

/-- A request touches the name that it is about. -/
theorem serve_sameBut
    (map : OrderedMap Entry)
    (edit : Edit) :
    OrderedMap.SameBut edit.name map (serve map edit).2 := by
  cases edit with
  | declare name params =>
      simp only [serve]
      split
      · exact .refl name map
      · exact map.sameBut_write name _
  | define name body =>
      simp only [serve]
      split
      · exact map.sameBut_write name _
      · exact .refl name map
      · exact .refl name map
  | discard name =>
      simp only [serve]
      split
      · exact map.sameBut_write name _
      · exact .refl name map
      · exact .refl name map
  | erase name => exact map.sameBut_remove name
  | overwrite name params =>
      simp only [serve]
      split
      · exact map.sameBut_write name _
      · exact .refl name map

/-- The functions that a map describes, in its order. -/
def functions (map : OrderedMap Entry) : List Function :=
  map.names.filterMap fun name => (map.value? name).map (function name)

end Entry

namespace Module

/-- Under distinct names, removing a function removes its name. -/
theorem Distinct.names_erase
    {table : Module}
    (distinct : table.Distinct)
    (name : String) :
    (table.erase name).names = table.names.filter (· ≠ name) := by
  unfold names
  rw [distinct.functions_erase, List.filter_map]
  rfl

/-! ## Refinement -/

/-- A table has the names of a map, in its order, and finds under each name the function that
the map describes. -/
structure Presents (table : Module) (map : OrderedMap Entry) : Prop where
  names : table.names = map.names
  finds : ∀ name, table.find? name = (map.value? name).map (Entry.function name)

namespace Presents

variable {table : Module} {map : OrderedMap Entry}

theorem empty (title : String) : (Module.empty title).Presents .empty where
  names := rfl
  finds := fun _ => rfl

theorem distinct (presents : table.Presents map) : table.Distinct := by
  unfold Distinct
  rw [presents.names]
  exact map.distinct

/-- Nothing else is in the table. -/
theorem functions_eq (presents : table.Presents map) :
    table.functions = Entry.functions map := by
  have found : ∀ function ∈ table.functions, table.find? function.name = some function :=
    fun function member => presents.distinct.find?_of_mem member
  calc table.functions
      = table.functions.filterMap some := List.filterMap_some.symm
    _ = table.functions.filterMap (table.find? ∘ Function.name) :=
        (List.filterMap_congr found).symm
    _ = table.names.filterMap table.find? := List.filterMap_map.symm
    _ = Entry.functions map := by
        unfold Entry.functions
        rw [presents.names]
        exact List.filterMap_congr fun name _ => presents.finds name

theorem write
    (presents : table.Presents map)
    (name : String)
    (entry : Entry) :
    (table.put (entry.function name)).Presents (map.write name entry) where
  names := by
    rw [names_put, presents.finds, presents.names]
    simp only [Option.isSome_map]
    rfl
  finds := by
    intro other
    rw [find?_put, presents.finds]
    by_cases same : other = name
    · simp [OrderedMap.write, Entry.function, same]
    · simp [OrderedMap.write, Entry.function, same]

theorem remove
    (presents : table.Presents map)
    (name : String) :
    (table.erase name).Presents (map.remove name) where
  names := by
    rw [presents.distinct.names_erase, presents.names]
    rfl
  finds := by
    intro other
    rw [presents.distinct.find?_erase, presents.finds]
    by_cases same : other = name
    · simp [OrderedMap.remove, same]
    · simp [OrderedMap.remove, same]

/-- A change of the function of a name that keeps the name is a change of its entry. -/
theorem modify
    (presents : table.Presents map)
    {name : String}
    {entry changed : Entry}
    (found : map.value? name = some entry)
    {change : Function → Function}
    (changes : change (entry.function name) = changed.function name) :
    (table.modify name change).Presents (map.write name changed) := by
  have foundHere : table.find? name = some (entry.function name) := by
    rw [presents.finds, found, Option.map_some]
  have sameName : (change (entry.function name)).name = name := by rw [changes]; rfl
  rw [modify_eq_put foundHere change sameName, changes]
  exact presents.write name changed

end Presents

/-- A request is answered as the map answers it, and leaves what the map becomes. -/
theorem serve_presents
    {table : Module}
    {map : OrderedMap Entry}
    (presents : table.Presents map)
    (edit : Edit) :
    (table.serve edit).1 = (Entry.serve map edit).1 ∧
      (table.serve edit).2.Presents (Entry.serve map edit).2 := by
  cases edit with
  | declare name params =>
      have finds := presents.finds name
      cases found : map.value? name with
      | some entry =>
          rw [found, Option.map_some] at finds
          simp [serve, Entry.serve, declare, finds, found, presents]
      | none =>
          rw [found, Option.map_none] at finds
          have declared : table.declare name params =
              table.put (Entry.function name ⟨params, none⟩) := by
            simp [declare, put, Entry.function, finds]
          simp only [serve, Entry.serve, found, declared, find?_put]
          exact ⟨by simp [Entry.function], presents.write name ⟨params, none⟩⟩
  | define name body =>
      have finds := presents.finds name
      rcases found : map.value? name with _ | ⟨params, _ | former⟩
      · rw [found, Option.map_none] at finds
        simp [serve, Entry.serve, define?, finds, found, presents]
      · rw [found, Option.map_some] at finds
        simp only [serve, Entry.serve, define?, finds, found]
        exact ⟨rfl, presents.modify found rfl⟩
      · rw [found, Option.map_some] at finds
        simp only [serve, Entry.serve, define?, finds, found]
        exact ⟨rfl, presents⟩
  | discard name =>
      have finds := presents.finds name
      rcases found : map.value? name with _ | ⟨params, _ | former⟩
      · rw [found, Option.map_none] at finds
        simp [serve, Entry.serve, discard, finds, found, modify_of_absent, presents]
      · rw [found, Option.map_some] at finds
        have unchanged : table.discard name = table :=
          (modify_eq_put finds _ rfl).trans (put_self finds)
        simp only [serve, Entry.serve, finds, found, unchanged]
        exact ⟨rfl, presents⟩
      · rw [found, Option.map_some] at finds
        simp only [serve, Entry.serve, finds, found]
        exact ⟨rfl, presents.modify found rfl⟩
  | erase name =>
      exact ⟨congrArg Reply.function (presents.finds name), presents.remove name⟩
  | overwrite name params =>
      have finds := presents.finds name
      rcases found : map.value? name with _ | ⟨former, body⟩
      · rw [found, Option.map_none] at finds
        simp [serve, Entry.serve, setParams, finds, found, modify_of_absent, presents]
      · have overwritten : (table.setParams name params).Presents
            (map.write name ⟨params, body⟩) := presents.modify found rfl
        simp only [serve, Entry.serve, found, overwritten.finds name]
        exact ⟨by simp [OrderedMap.write, Entry.function], overwritten⟩

/-- So it is for any requests, one after the other. -/
theorem serveAll_presents
    (edits : List Edit) :
    ∀ {table : Module} {map : OrderedMap Entry}, table.Presents map →
      (serveAll serve table edits).1 = (serveAll Entry.serve map edits).1 ∧
        (serveAll serve table edits).2.Presents (serveAll Entry.serve map edits).2 := by
  induction edits with
  | nil => exact fun presents => ⟨rfl, presents⟩
  | cons edit edits inductionHypothesis =>
      intro table map presents
      obtain ⟨sameReply, served⟩ := serve_presents presents edit
      obtain ⟨sameReplies, servedAll⟩ := inductionHypothesis served
      exact ⟨congrArg₂ List.cons sameReply sameReplies, servedAll⟩

/-- Requests do not change the name of the module. -/
theorem name_serveAll
    (edits : List Edit) :
    ∀ table : Module, (serveAll serve table edits).2.name = table.name := by
  have once : ∀ (table : Module) (edit : Edit), (table.serve edit).2.name = table.name := by
    intro table edit
    cases edit with
    | declare name params =>
        simp only [serve, declare]
        split <;> rfl
    | define name body =>
        simp only [serve, define?]
        cases table.find? name with
        | none => rfl
        | some function => cases defined : function.isDefined <;> simp [defined, modify]
    | discard name => rfl
    | erase name => rfl
    | overwrite name params => rfl
  induction edits with
  | nil => exact fun _ => rfl
  | cons edit edits inductionHypothesis =>
      exact fun table => (inductionHypothesis _).trans (once table edit)

/-- A function that was erased is declared anew behind all others. -/
theorem Distinct.functions_declare_erase
    {table : Module}
    (distinct : table.Distinct)
    (name : String)
    (params : List String) :
    ((table.erase name).declare name params).functions =
      table.functions.filter (·.name ≠ name) ++ [⟨name, params, none⟩] := by
  have absent : ((table.erase name).find? name).isSome = false := by
    simp [distinct.find?_erase]
  unfold declare
  rw [absent, ← distinct.functions_erase]
  rfl

/-- **The table of functions is a map in the order of declaration.**  After any requests to an
empty module, the answers and the functions are those of the map.  In particular no name stands
twice and a function that was erased comes last when it is declared again.  A further request
leaves all other names alone: what they stand for, whether they are defined, and their order. -/
theorem serveAll_refines
    (title : String)
    (edits : List Edit) :
    let after := serveAll serve (empty title) edits
    let described := serveAll Entry.serve OrderedMap.empty edits
    after.1 = described.1 ∧
      after.2 = ⟨title, Entry.functions described.2⟩ ∧
      after.2.Distinct ∧
      (∀ name params, ((after.2.erase name).declare name params).functions =
        after.2.functions.filter (·.name ≠ name) ++ [⟨name, params, none⟩]) ∧
      ∀ edit : Edit,
        (after.2.serve edit).2.names.filter (· ≠ edit.name) =
            after.2.names.filter (· ≠ edit.name) ∧
          ∀ other, other ≠ edit.name →
            (after.2.serve edit).2.find? other = after.2.find? other ∧
              (after.2.serve edit).2.state? other = after.2.state? other := by
  intro after described
  obtain ⟨sameReplies, presents⟩ := serveAll_presents edits (Presents.empty title)
  have whole : after.2 = ⟨title, Entry.functions described.2⟩ :=
    congrArg₂ Module.mk (name_serveAll edits (empty title)) presents.functions_eq
  refine ⟨sameReplies, whole, presents.distinct,
    presents.distinct.functions_declare_erase, fun edit => ?_⟩
  have next := (serve_presents presents edit).2
  have sameBut := Entry.serve_sameBut described.2 edit
  constructor
  · rw [next.names, presents.names, sameBut.names]
  · intro other different
    have kept : (after.2.serve edit).2.find? other = after.2.find? other := by
      rw [next.finds, presents.finds, sameBut.value? other different]
    exact ⟨kept, congrArg (Option.map Function.state) kept⟩

/-- `f` is declared, defined, erased and declared again, behind `g`, which stays as it is when
`f` gets new parameters. -/
theorem serveAll_refines_redeclared :
    let body : Body := ⟨[⟨"entry", [.ret none]⟩], []⟩
    let edits : List Edit := [.declare "f" ["x"], .define "f" body, .declare "g" [],
      .define "f" body, .erase "f", .declare "f" ["y"]]
    let after := (serveAll serve (empty "session") edits).2
    after.functions = [⟨"g", [], none⟩, ⟨"f", ["y"], none⟩] ∧
      after = ⟨"session", Entry.functions (serveAll Entry.serve OrderedMap.empty edits).2⟩ ∧
      "g" ≠ "f" ∧
      (after.serve (.overwrite "f" ["z"])).2.find? "g" = after.find? "g" := by
  intro body edits after
  obtain ⟨-, whole, -, -, others⟩ := serveAll_refines "session" edits
  have different : "g" ≠ "f" := by decide
  exact ⟨rfl, whole, different, ((others (.overwrite "f" ["z"])).2 "g" different).1⟩

end Module
end Code
end ScalarScript
