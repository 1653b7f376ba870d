import Mathlib.Data.List.Nodup
import ScalarScript.Code

/-!
# Laws of the function table

A module is read as a finite map from names to functions that remembers the order of
declaration.  `Module.put` writes one entry of that map: it replaces the function of the
same name where it stands, or adds it at the end.  All changes of one function are instances
of `put`.  Only `erase` needs distinct names: it uncovers a second function of the name it
removes.
-/

namespace ScalarScript
namespace Code
namespace Module

/-- The names of the functions, in order. -/
def names (table : Module) : List String :=
  table.functions.map Function.name

/-- No two functions have the same name. -/
def Distinct (table : Module) : Prop :=
  table.names.Nodup

/-- Writes one function: in place of the function of its name, or at the end. -/
def put (table : Module) (function : Function) : Module :=
  if (table.find? function.name).isSome then
    table.modify function.name fun _ => function
  else
    { table with functions := table.functions ++ [function] }

/-! ## Finding functions -/

theorem name_of_find?
    {table : Module}
    {name : String}
    {function : Function}
    (found : table.find? name = some function) :
    function.name = name := by
  simpa using List.find?_some found

theorem mem_of_find?
    {table : Module}
    {name : String}
    {function : Function}
    (found : table.find? name = some function) :
    function ∈ table.functions :=
  List.mem_of_find?_eq_some found

theorem find?_eq_none_iff
    {table : Module}
    {name : String} :
    table.find? name = none ↔ ∀ function ∈ table.functions, function.name ≠ name := by
  simp [find?]

/-- Under distinct names every function is found under its own. -/
theorem Distinct.find?_of_mem
    {table : Module}
    (distinct : table.Distinct)
    {function : Function}
    (member : function ∈ table.functions) :
    table.find? function.name = some function := by
  cases found : table.find? function.name with
  | none => exact absurd rfl (find?_eq_none_iff.1 found function member)
  | some other =>
      have same : other = function :=
        List.inj_on_of_nodup_map distinct (mem_of_find? found) member (name_of_find? found)
      rw [same]

/-- Changing the function of one name, without renaming it, shows under that name
only. -/
theorem find?_modify
    (table : Module)
    (name other : String)
    (change : Function → Function)
    (keepsName : ∀ function : Function, function.name = name → (change function).name = name) :
    (table.modify name change).find? other =
      if other = name then (table.find? name).map change else table.find? other := by
  unfold find? modify position
  simp only
  induction table.functions with
  | nil => simp
  | cons function functions inductionHypothesis =>
      by_cases here : function.name = name
      · by_cases same : other = name
        · simp [List.findIdx_cons, here, same, keepsName function here]
        · have different : ¬name = other := fun equal => same equal.symm
          simp [List.findIdx_cons, here, same, different, keepsName function here]
      · by_cases same : other = name
        · simpa [List.findIdx_cons, here, same] using inductionHypothesis
        · by_cases found : function.name = other
          · simp [List.findIdx_cons, same, found]
          · simpa [List.findIdx_cons, here, same, found] using inductionHypothesis

theorem find?_append
    (table : Module)
    (function : Function)
    (absent : table.find? function.name = none)
    (name : String) :
    ({ table with functions := table.functions ++ [function] } : Module).find? name =
      if name = function.name then some function else table.find? name := by
  by_cases same : name = function.name
  · subst name
    unfold find? at absent ⊢
    simp [List.find?_append, absent]
  · have different : ¬function.name = name := fun equal => same equal.symm
    unfold find?
    simp [List.find?_append, same, different]

/-- What was written is found under its name, and nothing else changed. -/
@[simp] theorem find?_put
    (table : Module)
    (function : Function)
    (name : String) :
    (table.put function).find? name =
      if name = function.name then some function else table.find? name := by
  unfold put
  cases found : table.find? function.name with
  | none => simpa [found] using find?_append table function found name
  | some former =>
      have renames := find?_modify table function.name name (fun _ => function) fun _ _ => rfl
      simpa [found] using renames

/-- Under distinct names, removing one function removes all of its name. -/
theorem Distinct.functions_erase
    {table : Module}
    (distinct : table.Distinct)
    (name : String) :
    (table.erase name).functions =
      table.functions.filter fun function => function.name ≠ name := by
  obtain ⟨title, functions⟩ := table
  unfold Distinct names at distinct
  unfold erase position
  simp only at distinct ⊢
  induction functions with
  | nil => rfl
  | cons function functions inductionHypothesis =>
      obtain ⟨isNew, others⟩ := List.nodup_cons.1 distinct
      by_cases here : function.name = name
      · have noOther : ∀ other ∈ functions, decide (other.name ≠ name) = true := by
          intro other member
          have different : other.name ≠ function.name :=
            fun same => isNew (List.mem_map.2 ⟨other, member, same⟩)
          simpa [here] using different
        have kept := List.filter_eq_self.2 noOther
        simp only [List.findIdx_cons, here, List.filter_cons, kept]
        simp
      · simpa [List.findIdx_cons, here] using inductionHypothesis others

/-- Under distinct names, what was removed is found no more, and nothing else changed. -/
theorem Distinct.find?_erase
    {table : Module}
    (distinct : table.Distinct)
    (name other : String) :
    (table.erase name).find? other = if other = name then none else table.find? other := by
  unfold find?
  rw [distinct.functions_erase, List.find?_filter]
  by_cases same : other = name
  · simp [same]
  · rw [if_neg same]
    congr 1
    funext function
    by_cases found : function.name = other
    · simp [found, same]
    · simp [found]

/-! ## Changing functions -/

theorem position_of_absent
    {table : Module}
    {name : String}
    (absent : table.find? name = none) :
    table.position name = table.functions.length := by
  refine List.findIdx_eq_length_of_false fun function member => ?_
  simpa using find?_eq_none_iff.1 absent function member

theorem position_append
    {table : Module}
    {function : Function}
    (absent : table.find? function.name = none) :
    ({ table with functions := table.functions ++ [function] } : Module).position function.name =
      table.functions.length := by
  have before := position_of_absent absent
  unfold position at before ⊢
  simp [List.findIdx_append, before]

/-- A function that was added at the end is changed there. -/
theorem modify_append
    {table : Module}
    {function : Function}
    (absent : table.find? function.name = none)
    (change : Function → Function) :
    ({ table with functions := table.functions ++ [function] } : Module).modify
        function.name change =
      { table with functions := table.functions ++ [change function] } := by
  unfold modify
  rw [position_append absent]
  simp [List.modify_eq_take_cons_drop]

/-- Where nothing has the name, nothing changes. -/
theorem modify_of_absent
    {table : Module}
    {name : String}
    (absent : table.find? name = none)
    (change : Function → Function) :
    table.modify name change = table := by
  unfold modify
  rw [position_of_absent absent, List.modify_eq_self (Nat.le_refl _)]

/-- A change that keeps the name of its function keeps all names. -/
theorem names_modify
    (table : Module)
    (name : String)
    {change : Function → Function}
    (keepsName : ∀ function : Function, function.name = name → (change function).name = name) :
    (table.modify name change).names = table.names := by
  unfold names modify position
  simp only
  induction table.functions with
  | nil => simp
  | cons function functions inductionHypothesis =>
      by_cases here : function.name = name
      · simp [List.findIdx_cons, here, keepsName function here]
      · simpa [List.findIdx_cons, here] using inductionHypothesis

/-- The place of a function depends on the names only. -/
theorem position_eq_of_names_eq
    {table other : Module}
    (sameNames : table.names = other.names)
    (name : String) :
    table.position name = other.position name := by
  have inNames (table : Module) : table.position name = table.names.findIdx (· = name) := by
    unfold position names
    rw [List.findIdx_map]
    rfl
  rw [inNames, inNames, sameNames]

/-- Of two changes of a function the second comes on top of the first. -/
theorem modify_modify
    (table : Module)
    (name : String)
    {first second : Function → Function}
    (keepsName : ∀ function : Function, function.name = name → (first function).name = name) :
    (table.modify name first).modify name second =
      table.modify name fun function => second (first function) := by
  have samePosition := position_eq_of_names_eq (table.names_modify name keepsName) name
  rw [modify, samePosition]
  unfold modify
  simp only [List.modify_modify_eq]
  rfl

/-- A function that is changed and removed is only removed. -/
theorem erase_modify
    (table : Module)
    (name : String)
    {change : Function → Function}
    (keepsName : ∀ function : Function, function.name = name → (change function).name = name) :
    (table.modify name change).erase name = table.erase name := by
  have samePosition := position_eq_of_names_eq (table.names_modify name keepsName) name
  rw [erase, samePosition]
  unfold modify erase
  simp only [List.eraseIdx_modify_of_eq]

/-- A change of a function is a change to what it makes of the function that is there. -/
theorem modify_congr
    {table : Module}
    {name : String}
    {function : Function}
    (found : table.find? name = some function)
    {first second : Function → Function}
    (agree : first function = second function) :
    table.modify name first = table.modify name second := by
  unfold find? at found
  rw [List.find?_eq_getElem?_findIdx] at found
  unfold modify
  congr 1
  refine List.ext_getElem? fun index => ?_
  rw [List.getElem?_modify, List.getElem?_modify]
  by_cases here : table.position name = index
  · subst here
    unfold position
    simp [found, agree]
  · simp [here]

/-! ## Writing functions -/

theorem names_put
    (table : Module)
    (function : Function) :
    (table.put function).names =
      if (table.find? function.name).isSome then table.names
      else table.names ++ [function.name] := by
  unfold put
  split
  · exact table.names_modify function.name fun _ _ => rfl
  · simp [names]

theorem Distinct.put
    {table : Module}
    (distinct : table.Distinct)
    (function : Function) :
    (table.put function).Distinct := by
  unfold Distinct
  rw [names_put]
  split
  · exact distinct
  · rename_i absent
    refine List.nodup_append.2 ⟨distinct, List.nodup_singleton _, ?_⟩
    intro name member other inSingleton same
    obtain ⟨former, formerMember, rfl⟩ := List.mem_map.1 member
    have missing : table.find? function.name = none := by simpa using absent
    exact find?_eq_none_iff.1 missing former formerMember (by simp_all)

/-- A change of one function is the writing of its new version. -/
theorem modify_eq_put
    {table : Module}
    {name : String}
    {function : Function}
    (found : table.find? name = some function)
    (change : Function → Function)
    (keepsName : (change function).name = name) :
    table.modify name change = table.put (change function) := by
  unfold put
  rw [keepsName, found]
  exact modify_congr found rfl

/-- Writing what is there already changes nothing. -/
theorem put_self
    {table : Module}
    {name : String}
    {function : Function}
    (found : table.find? name = some function) :
    table.put function = table := by
  have unchanged : table.modify name id = table := by
    unfold modify
    rw [List.modify_id]
  have written := modify_eq_put found id (name_of_find? found)
  rw [unchanged] at written
  exact written.symm

/-- Of two functions written under one name the second stays. -/
theorem put_put
    (table : Module)
    {first second : Function}
    (sameName : first.name = second.name) :
    (table.put first).put second = table.put second := by
  have written : (table.put first).find? second.name = some first := by simp [sameName]
  have replaced := modify_eq_put written (fun _ => second) rfl
  rw [← replaced]
  unfold put
  rw [sameName]
  cases found : table.find? second.name with
  | none =>
      rw [← sameName] at found ⊢
      exact modify_append found fun _ => second
  | some former => exact table.modify_modify second.name fun _ _ => sameName

/-- Removing a function that was new gives the table back. -/
theorem erase_put_of_absent
    (table : Module)
    {function : Function}
    (absent : table.find? function.name = none) :
    (table.put function).erase function.name = table := by
  have added : table.put function = { table with functions := table.functions ++ [function] } := by
    simp [put, absent]
  unfold erase
  rw [added, position_append absent]
  simp [List.eraseIdx_append_of_length_le]

/-! ## Tables that grow -/

/-- Every function of one table is in the other, with as many parameters. -/
def KeepsArities (table larger : Module) : Prop :=
  ∀ name function, table.find? name = some function →
    ∃ kept, larger.find? name = some kept ∧ kept.arity = function.arity

/-- Writing a function keeps all arities when it agrees with the one it replaces. -/
theorem KeepsArities.put
    (table : Module)
    (function : Function)
    (agrees : ∀ former, table.find? function.name = some former →
      former.arity = function.arity) :
    table.KeepsArities (table.put function) := by
  intro name former found
  rw [find?_put]
  by_cases same : name = function.name
  · subst name
    exact ⟨function, by simp, (agrees former found).symm⟩
  · exact ⟨former, by simpa [same] using found, rfl⟩

end Module
end Code
end ScalarScript
