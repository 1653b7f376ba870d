import ScalarScript.Proofs.CallSafety
import ScalarScript.Proofs.Pieces

/-!
# Names inside a function

In a listing the parameters, registers and blocks of a function are known by their names.  The
builder makes the names of registers and blocks: it takes a hint as it is the first time and
puts a number behind it after that.  No hint ends in a digit, so hint and number can be told
from a name, and no name is made twice.  The builder does not know the parameters, though, and
a parameter may have the name of a register or a block.
-/

namespace ScalarScript
namespace Code

/-- The names of the registers and blocks of a body. -/
def Body.names (body : Body) : List String :=
  body.registers.map Register.name ++ body.blocks.map Block.label

/-- The names of the registers and blocks of a function. -/
def Function.madeNames (function : Function) : List String :=
  (function.body.map Body.names).getD []

/-- The names of the parameters, registers and blocks of a function. -/
def Function.localNames (function : Function) : List String :=
  function.params ++ function.madeNames

/-! ## Numbered hints -/

/-- The name that is made from a hint after some uses of it. -/
def numbered (hint : String) (uses : Nat) : String :=
  if uses = 0 then hint else s!"{hint}{uses}"

/-- The hints from which lowering makes names. -/
def vocabulary : List String :=
  ["entry", "then", "else", "ifcont", "ifcond", "addtmp", "subtmp", "multmp", "divtmp", "cmptmp",
    "booltmp", "calltmp"]

theorem Builder.freshName_eq (builder : Builder) (hint : String) :
    builder.freshName hint = numbered hint (builder.hints.count hint) := rfl

theorem hint_mem_vocabulary (op : Arith) : op.hint ∈ vocabulary := by
  cases op <;> decide

/-- A numbered hint is the hint and then digits. -/
theorem toList_numbered (hint : String) (uses : Nat) :
    (numbered hint uses).toList =
      hint.toList ++ (if uses = 0 then [] else Nat.toDigits 10 uses) := by
  unfold numbered
  split
  · rw [List.append_nil]
  · change (hint ++ toString uses).toList = _
    rw [String.toList_append, Nat.toString_eq_ofList_toDigits, String.toList_ofList]

/-- The hint is what is left of a name when the digits at its end are taken off. -/
theorem dropWhile_numbered
    {hint : String}
    (known : hint ∈ vocabulary)
    (uses : Nat) :
    (numbered hint uses).toList.reverse.dropWhile Char.isDigit = hint.toList.reverse := by
  have noDigits : ∀ hint ∈ vocabulary, hint.toList.reverse.head?.all (!·.isDigit) = true := by
    decide
  have ends : Piece.NextFails Char.isDigit hint.toList.reverse := by
    intro c last
    have noDigit := noDigits hint known
    rw [Option.mem_def.1 last] at noDigit
    simpa using noDigit
  rw [toList_numbered, List.reverse_append]
  refine ends.dropWhile_append ?_
  intro c member
  split at member
  · cases member
  · exact Nat.isDigit_of_mem_toDigits (by decide) (by decide) (List.mem_reverse.1 member)

/-- No two hints with numbers are the same name. -/
theorem numbered_inj
    {hint other : String}
    (known : hint ∈ vocabulary)
    (otherKnown : other ∈ vocabulary)
    {uses otherUses : Nat}
    (same : numbered hint uses = numbered other otherUses) :
    hint = other ∧ uses = otherUses := by
  have sameReversed : hint.toList.reverse = other.toList.reverse := by
    rw [← dropWhile_numbered known uses, same, dropWhile_numbered otherKnown]
  obtain rfl : hint = other := String.toList_injective (List.reverse_injective sameReversed)
  refine ⟨rfl, ?_⟩
  have sameList := congrArg String.toList same
  rw [toList_numbered, toList_numbered, List.append_cancel_left_eq] at sameList
  split at sameList
  · split at sameList
    · omega
    · exact absurd sameList.symm Nat.toDigits_ne_nil
  · split at sameList
    · exact absurd sameList Nat.toDigits_ne_nil
    · rw [← @Nat.ofDigitChars_ten_toDigits uses, sameList, Nat.ofDigitChars_ten_toDigits]

/-! ## Builders that keep names apart -/

namespace Builder

/-- No two registers or blocks have the same name, and each name is a hint with a number below
that of the next use. -/
structure Apart (builder : Builder) : Prop where
  nodup : builder.body.names.Nodup
  numbered : ∀ name ∈ builder.body.names,
    ∃ hint ∈ vocabulary, ∃ uses < builder.hints.count hint, name = numbered hint uses

namespace Apart

variable {builder : Builder}

/-- A fresh name is none of the names in the body. -/
theorem freshName_not_mem
    (apart : builder.Apart)
    {hint : String}
    (known : hint ∈ vocabulary) :
    builder.freshName hint ∉ builder.body.names := by
  intro member
  -- a name that is there has a number below the one that comes next
  obtain ⟨other, otherKnown, uses, earlier, same⟩ := apart.numbered _ member
  rw [freshName_eq] at same
  obtain ⟨rfl, rfl⟩ := numbered_inj known otherKnown same
  exact Nat.lt_irrefl _ earlier

/-- Making a name keeps names apart. -/
theorem fresh
    (apart : builder.Apart)
    {hint : String}
    (known : hint ∈ vocabulary)
    {next : Builder}
    (names : next.body.names.Perm (builder.freshName hint :: builder.body.names))
    (hints : next.hints = hint :: builder.hints) :
    next.Apart where
  nodup := names.nodup_iff.2 (List.nodup_cons.2 ⟨apart.freshName_not_mem known, apart.nodup⟩)
  numbered := by
    intro name member
    rw [hints]
    rcases List.mem_cons.1 (names.mem_iff.1 member) with rfl | old
    · refine ⟨hint, known, builder.hints.count hint, ?_, builder.freshName_eq hint⟩
      rw [List.count_cons_self]
      exact Nat.lt_succ_self _
    · obtain ⟨other, otherKnown, uses, earlier, same⟩ := apart.numbered name old
      exact ⟨other, otherKnown, uses, Nat.lt_of_lt_of_le earlier List.count_le_count_cons, same⟩

/-- Builders with the same names and hints keep them apart alike. -/
theorem unchanged
    (apart : builder.Apart)
    {next : Builder}
    (names : next.body.names = builder.body.names)
    (hints : next.hints = builder.hints) :
    next.Apart where
  nodup := names ▸ apart.nodup
  numbered := by
    rw [names, hints]
    exact apart.numbered

/-- A new register keeps the names apart. -/
theorem allocate
    (apart : builder.Apart)
    {hint : String}
    (known : hint ∈ vocabulary)
    (type : ValueType) :
    (builder.allocate hint type).2.Apart := by
  refine apart.fresh known ?_ rfl
  simp only [Body.names, body, Builder.allocate, List.map_append, List.map_cons, List.map_nil,
    List.append_assoc, List.singleton_append]
  exact List.perm_middle

/-- A new block keeps the names apart. -/
theorem createBlock
    (apart : builder.Apart)
    {hint : String}
    (known : hint ∈ vocabulary) :
    (builder.createBlock hint).2.Apart := by
  refine apart.fresh known ?_ rfl
  simp only [Body.names, body, Builder.createBlock, List.map_append, List.map_cons, List.map_nil,
    ← List.append_assoc]
  exact List.perm_append_singleton ..

theorem position
    (apart : builder.Apart)
    (index : Nat) :
    (builder.position index).Apart :=
  apart.unchanged rfl rfl

theorem push
    (apart : builder.Apart)
    (index : Nat)
    (op : Op) :
    (builder.push index op).Apart := by
  unfold Builder.push
  split
  · rename_i block found
    obtain ⟨inside, rfl⟩ := List.getElem?_eq_some_iff.1 found
    refine apart.unchanged ?_ rfl
    have labels : (builder.blocks.set index (builder.blocks[index].push op)).map Block.label =
        builder.blocks.map Block.label := by
      have insideLabels : index < (builder.blocks.map Block.label).length := by simpa using inside
      rw [List.map_set, Block.push, ← List.getElem_map Block.label (h := insideLabels),
        List.set_getElem_self]
    simp only [Body.names, body, labels]
  · exact apart.unchanged rfl rfl

theorem emit
    (apart : builder.Apart)
    (op : Op) :
    (builder.emit op).Apart := by
  unfold Builder.emit
  split
  · exact apart.push _ op
  · exact ((apart.createBlock (by decide)).position _).push _ op

/-- Emissions keep the names apart. -/
theorem addAll
    (apart : builder.Apart)
    {emissions : List Emission}
    (known : ∀ emission ∈ emissions, emission.hint ∈ vocabulary) :
    (builder.addAll emissions).Apart := by
  induction emissions generalizing builder with
  | nil => exact apart
  | cons emission emissions inductionHypothesis =>
      have added : (builder.add emission).Apart :=
        (apart.allocate (known emission (.head _)) emission.type).emit emission.op
      exact inductionHypothesis added fun other member => known other (.tail _ member)

/-- New blocks keep the names apart. -/
theorem createBlocks
    (apart : builder.Apart)
    {hints : List String}
    (known : ∀ hint ∈ hints, hint ∈ vocabulary) :
    (builder.createBlocks hints).Apart := by
  induction hints generalizing builder with
  | nil => exact apart
  | cons hint hints inductionHypothesis =>
      exact inductionHypothesis (apart.createBlock (known hint (.head _)))
        fun other member => known other (.tail _ member)

/-- A new body has one name. -/
theorem opened : Builder.opened.Apart := by
  have empty : ({} : Builder).Apart := ⟨List.nodup_nil, nofun⟩
  exact (empty.createBlock (by decide)).position _

end Apart
end Builder
end Code

/-! ## Lowering keeps names apart -/

namespace Lowering

open Code (vocabulary)

namespace Straight

/-- The registers of the code get their names from known hints. -/
def KnownHints {α : Type} (straight : Straight α) : Prop :=
  ∀ low, ∀ emission ∈ (straight low).emissions, emission.hint ∈ vocabulary

theorem KnownHints.pure
    {α : Type}
    (value : α) :
    KnownHints (Pure.pure value : Straight α) := by
  intro low emission member
  cases member

theorem KnownHints.fail
    {α : Type}
    (error : LoweringError) :
    KnownHints (Straight.fail error : Straight α) := by
  intro low emission member
  cases member

theorem KnownHints.emit
    {hint : String}
    (known : hint ∈ vocabulary)
    (type : Code.ValueType)
    (op : Nat → Code.Op) :
    KnownHints (Straight.emit hint type op) := by
  intro low emission member
  obtain rfl := List.mem_singleton.1 member
  exact known

/-- Steps with known hints have known hints together. -/
theorem KnownHints.bind
    {α β : Type}
    {first : Straight α}
    {next : α → Straight β}
    (firstKnown : KnownHints first)
    (nextKnown : ∀ value, KnownHints (next value)) :
    KnownHints (first >>= next) := by
  intro low emission member
  simp only [Bind.bind] at member
  cases ended : (first low).result with
  | error error =>
      simp only [ended] at member
      exact firstKnown low emission member
  | ok value =>
      simp only [ended] at member
      rcases List.mem_append.1 member with inFirst | inNext
      · exact firstKnown low emission inFirst
      · exact nextKnown value _ emission inNext

end Straight

open Straight (KnownHints)

/-- The code of an operation uses known hints only. -/
theorem binaryCode_knownHints
    (op : Token.Kind)
    (lhs rhs : Code.Operand)
    (span : Span) :
    KnownHints (binaryCode op lhs rhs span) := by
  unfold binaryCode
  split
  · exact .emit (Code.hint_mem_vocabulary _) _ _
  · exact .bind (.emit (by decide) _ _) fun _ => .emit (by decide) _ _
  · exact .fail _

mutual

/-- The code of an expression uses known hints only. -/
theorem exprCode_knownHints
    (table : Code.Module)
    (scope : Scope)
    (expr : Expr) :
    KnownHints (exprCode table scope expr) := by
  cases expr with
  | num value span =>
      rw [exprCode]
      exact .pure _
  | var name span =>
      rw [exprCode]
      split
      · exact .pure _
      · exact .fail _
  | binary op left right span =>
      rw [exprCode]
      exact .bind (exprCode_knownHints table scope left) fun lhs =>
        .bind (exprCode_knownHints table scope right) fun rhs =>
          binaryCode_knownHints op lhs rhs span
  | call callee args span =>
      rw [exprCode]
      split
      · exact .fail _
      · split
        · exact .fail _
        · exact .bind (argsCode_knownHints table scope args) fun _ => .emit (by decide) _ _

/-- The code of arguments uses known hints only. -/
theorem argsCode_knownHints
    (table : Code.Module)
    (scope : Scope)
    (args : List Expr) :
    KnownHints (argsCode table scope args) := by
  cases args with
  | nil =>
      rw [argsCode]
      exact .pure _
  | cons arg args =>
      rw [argsCode]
      exact .bind (exprCode_knownHints table scope arg) fun _ =>
        .bind (argsCode_knownHints table scope args) fun _ => .pure _

end

theorem conditionCode_knownHints
    (table : Code.Module)
    (scope : Scope)
    (condition : Expr) :
    KnownHints (conditionCode table scope condition) :=
  .bind (exprCode_knownHints table scope condition) fun _ => .emit (by decide) _ _

/-- Every step of lowering keeps names apart. -/
theorem apart_invariant
    (table : Code.Module)
    (scope : Scope) :
    Invariant table scope Code.Builder.Apart where
  evaluation := by
    intro expr builder emissions operand made apart
    have known := exprCode_knownHints table scope expr builder.registers.length
    rw [made] at known
    have added := apart.addAll known
    exact ⟨added, added.emit _⟩
  finish := fun apart => apart.emit _
  jump := fun _ apart => apart.emit _
  fork := by
    intro condition builder emissions flag hints made isArms apart
    have known := conditionCode_knownHints table scope condition builder.registers.length
    rw [made] at known
    have blocks : ∀ hints ∈ armHints, ∀ hint ∈ hints, hint ∈ vocabulary := by decide
    exact ((apart.addAll known).createBlocks (blocks hints isArms)).emit _
  position := fun _ apart => apart.position _

/-- A body that was built for a definition has its names from the builder, and the parameters
are those of a prototype. -/
theorem Built.names
    {function : Code.Function}
    (built : Built function) :
    function.params.Nodup ∧ function.madeNames.Nodup ∧
      ∀ name ∈ function.madeNames,
        ∃ hint ∈ vocabulary, ∃ uses, name = Code.numbered hint uses := by
  obtain ⟨table, proto, body, builder, built, rfl⟩ := built
  have apart := (apart_invariant _ _).source _ _ _ built Code.Builder.Apart.opened
  refine ⟨proto.distinct, apart.nodup, fun name member => ?_⟩
  obtain ⟨hint, known, uses, _, same⟩ := apart.numbered name member
  exact ⟨hint, known, uses, same⟩

end Lowering

namespace Machine

open Code (vocabulary numbered)

/-- In a module that comes from texts, the parameters of a function that is defined have
different names, and so have its registers and blocks, which are named after hints.  All local
names of the function are different exactly if no parameter is named like a register or block,
and none is unless it is a hint or a hint with a number. -/
theorem localNames_fromTexts
    {table : Code.Module}
    (fromTexts : FromTexts table)
    {function : Code.Function}
    (member : function ∈ table.functions)
    (isDefined : function.isDefined = true) :
    function.params.Nodup ∧ function.madeNames.Nodup ∧
      (∀ name ∈ function.madeNames, ∃ hint ∈ vocabulary, ∃ uses, name = numbered hint uses) ∧
      (function.localNames.Nodup ↔ ∀ param ∈ function.params, param ∉ function.madeNames) ∧
      ((∀ param ∈ function.params, ∀ hint ∈ vocabulary, ∀ uses, param ≠ numbered hint uses) →
        function.localNames.Nodup) := by
  have found := fromTexts.sound.distinct.find?_of_mem member
  obtain ⟨body, code⟩ := Option.isSome_iff_exists.1 isDefined
  obtain ⟨params, made, hinted⟩ := (fromTexts.built found code).names
  have distinct : function.localNames.Nodup ↔
      ∀ param ∈ function.params, param ∉ function.madeNames := by
    rw [Code.Function.localNames, List.nodup_append']
    exact ⟨fun parts param isParam isMade => parts.2.2 isParam isMade,
      fun apart => ⟨params, made, fun param isParam isMade => apart param isParam isMade⟩⟩
  refine ⟨params, made, hinted, distinct, fun unlike => distinct.2 ?_⟩
  intro param isParam isMade
  obtain ⟨hint, known, uses, same⟩ := hinted param isMade
  exact unlike param isParam hint known uses same

/-- A function with two sums, a comparison and both arms of a conditional. -/
def branching : Code.Module :=
  ((Session.start "m" true true).executeAll [.ofSource "m"
    "def f(x, y) if x < y then return x + y + 1 else return y - x end end"]).table

/-- A function with a branch and repeated operations shows numbered names. -/
theorem localNames_branching :
    ∃ function ∈ branching.functions, function.isDefined = true ∧ function.params = ["x", "y"] ∧
      function.madeNames = ["cmptmp", "booltmp", "ifcond", "addtmp", "addtmp1", "subtmp",
        "entry", "then", "else", "ifcont"] ∧
      function.localNames.Nodup := by
  have names : (true, ["x", "y"], ["cmptmp", "booltmp", "ifcond", "addtmp", "addtmp1", "subtmp",
      "entry", "then", "else", "ifcont"]) ∈ branching.functions.map fun function =>
        (function.isDefined, function.params, function.madeNames) := by
    decide +kernel
  obtain ⟨function, member, same⟩ := List.mem_map.1 names
  simp only [Prod.mk.injEq] at same
  obtain ⟨isDefined, params, made⟩ := same
  obtain ⟨_, _, _, distinct, _⟩ := localNames_fromTexts (.session ..) member isDefined
  refine ⟨function, member, isDefined, params, made, distinct.2 ?_⟩
  rw [params, made]
  decide

/-- A function whose parameter is named like the register of a sum. -/
def clashing : Code.Module :=
  ((Session.start "m" true true).executeAll [.ofSource "m"
    "def f(addtmp) return addtmp + 1 end"]).table

/-- The local names of a function need not be different: the parameter and the register are
both written `%addtmp` in the listing. -/
theorem localNames_clash :
    ¬∀ table, FromTexts table → ∀ function ∈ table.functions, function.localNames.Nodup := by
  intro always
  have names : ["addtmp", "addtmp", "entry"] ∈
      clashing.functions.map Code.Function.localNames := by
    decide +kernel
  obtain ⟨function, member, same⟩ := List.mem_map.1 names
  have distinct := always clashing (.session ..) function member
  rw [same] at distinct
  exact absurd distinct (by decide)

end Machine
end ScalarScript
