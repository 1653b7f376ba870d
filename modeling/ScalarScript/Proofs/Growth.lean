import ScalarScript.Proofs.Layout

/-!
# Bodies under construction

Lowering only adds to a body: ops go to the end of the block at the insertion point, and
other blocks come after those that are there.  `Body.Initial` says that a body is the
beginning of another one; `Builder.Grows` says in addition that of the blocks that were
there only the one at the insertion point has changed.  `Piece` lists the steps of which the
lowering of a body is made, so that what each of them keeps, an `Invariant`, is kept by all of
lowering.
-/

namespace ScalarScript
namespace Code

/-- One body is the beginning of another: the blocks of the first stand at the same places
in the second, where more ops may follow. -/
structure Body.Initial (part whole : Body) : Prop where
  registers : part.registers.length ≤ whole.registers.length
  blocks : ∀ (index : Nat) (block : Block), part.blocks[index]? = some block →
    ∃ later : Block, whole.blocks[index]? = some later ∧ block.ops <+: later.ops

namespace Body.Initial

theorem refl (body : Body) : body.Initial body where
  registers := Nat.le_refl _
  blocks := fun _ block found => ⟨block, found, List.prefix_refl _⟩

theorem trans
    {first second third : Body}
    (early : first.Initial second)
    (late : second.Initial third) :
    first.Initial third where
  registers := Nat.le_trans early.registers late.registers
  blocks := by
    intro index block found
    obtain ⟨middle, middleFound, middleOps⟩ := early.blocks index block found
    obtain ⟨last, lastFound, lastOps⟩ := late.blocks index middle middleFound
    exact ⟨last, lastFound, middleOps.trans lastOps⟩

/-- An initial part has no more blocks. -/
theorem length_le
    {part whole : Body}
    (initial : part.Initial whole) :
    part.blocks.length ≤ whole.blocks.length := by
  by_contra longer
  have inside : whole.blocks.length < part.blocks.length := by omega
  obtain ⟨later, found, _⟩ := initial.blocks _ _ (List.getElem?_eq_getElem inside)
  simp at found

end Body.Initial

namespace Builder

/-- The insertion point is at the end of the given block. -/
def At (builder : Builder) (index : Nat) (block : Block) : Prop :=
  builder.insertion = some index ∧ builder.blocks[index]? = some block

/-- What building does to a builder. -/
structure Grows (before after : Builder) : Prop where
  initial : before.body.Initial after.body
  others : ∀ index < before.blocks.length, before.insertion ≠ some index →
    after.blocks[index]? = before.blocks[index]?
  /-- The insertion point stays or moves to a new block. -/
  insertion : after.insertion = before.insertion ∨
    ∃ index, after.insertion = some index ∧ before.blocks.length ≤ index ∧
      index < after.blocks.length

namespace Grows

theorem length_le
    {before after : Builder}
    (grows : before.Grows after) :
    before.blocks.length ≤ after.blocks.length :=
  grows.initial.length_le

theorem refl (builder : Builder) : builder.Grows builder where
  initial := .refl _
  others := fun _ _ _ => rfl
  insertion := .inl rfl

theorem trans
    {first second third : Builder}
    (early : first.Grows second)
    (late : second.Grows third) :
    first.Grows third where
  initial := early.initial.trans late.initial
  others := by
    intro index inside elsewhere
    have stillElsewhere : second.insertion ≠ some index := by
      intro here
      rcases early.insertion with same | ⟨other, moved, new, _⟩
      · exact elsewhere (same ▸ here)
      · rw [moved, Option.some.injEq] at here
        omega
    have insideSecond := Nat.lt_of_lt_of_le inside early.length_le
    rw [late.others index insideSecond stillElsewhere, early.others index inside elsewhere]
  insertion := by
    have longer := early.length_le
    have longest := late.length_le
    rcases late.insertion with same | ⟨index, moved, new, inside⟩
    · rcases early.insertion with sameBefore | ⟨index, moved, new, inside⟩
      · exact .inl (same.trans sameBefore)
      · exact .inr ⟨index, same.trans moved, new, by omega⟩
    · exact .inr ⟨index, moved, by omega, inside⟩

/-- Moving on to a block that is new. -/
theorem position
    {before after : Builder}
    (grows : before.Grows after)
    {index : Nat}
    (new : before.blocks.length ≤ index)
    (inside : index < after.blocks.length) :
    before.Grows (after.position index) where
  initial := grows.initial
  others := grows.others
  insertion := .inr ⟨index, rfl, new, inside⟩

theorem createBlock
    (builder : Builder)
    (hint : String) :
    builder.Grows (builder.createBlock hint).2 where
  initial := {
    registers := Nat.le_refl _
    blocks := by
      intro index block found
      change builder.blocks[index]? = some block at found
      have inside := (List.getElem?_eq_some_iff.1 found).1
      refine ⟨block, ?_, List.prefix_refl _⟩
      change (builder.blocks ++ _)[index]? = _
      rw [List.getElem?_append_left inside]
      exact found }
  others := by
    intro index inside _
    exact List.getElem?_append_left inside
  insertion := .inl rfl

theorem allocate
    (builder : Builder)
    (hint : String)
    (type : ValueType) :
    builder.Grows (builder.allocate hint type).2 where
  initial := {
    registers := by simp [Builder.allocate, body]
    blocks := (Body.Initial.refl builder.body).blocks }
  others := fun _ _ _ => rfl
  insertion := .inl rfl

theorem push
    {builder : Builder}
    {index : Nat}
    (here : builder.insertion = some index)
    (op : Op) :
    builder.Grows (builder.push index op) := by
  unfold Builder.push
  cases found : builder.blocks[index]? with
  | none => exact ⟨.refl _, fun _ _ _ => rfl, .inl rfl⟩
  | some block =>
      refine ⟨⟨Nat.le_refl _, ?_⟩, ?_, .inl rfl⟩
      · intro other former otherFound
        change builder.blocks[other]? = some former at otherFound
        change ∃ later, (builder.blocks.set index (block.push op))[other]? = some later ∧ _
        rw [List.getElem?_set]
        by_cases same : index = other
        · subst other
          obtain rfl : block = former := by simpa [found] using otherFound
          have inside := (List.getElem?_eq_some_iff.1 found).1
          exact ⟨block.push op, by simp [inside], List.prefix_append _ _⟩
        · exact ⟨former, by simp [same, otherFound], List.prefix_refl _⟩
      · intro other inside elsewhere
        have different : index ≠ other := fun same => elsewhere (same ▸ here)
        exact List.getElem?_set_ne different

/-- An instruction makes the body grow. -/
theorem emit
    (builder : Builder)
    (op : Op) :
    builder.Grows (builder.emit op) := by
  unfold Builder.emit
  cases here : builder.insertion with
  | some index => exact push here op
  | none =>
      have created := (createBlock builder "entry").position (Nat.le_refl _)
        (show builder.blocks.length < _ by simp [Builder.createBlock])
      exact created.trans (push rfl op)

theorem add
    (builder : Builder)
    (emission : Emission) :
    builder.Grows (builder.add emission) :=
  (allocate builder _ _).trans (emit _ _)

/-- Straight-line code makes the body grow. -/
theorem addAll
    (builder : Builder)
    (emissions : List Emission) :
    builder.Grows (builder.addAll emissions) := by
  induction emissions generalizing builder with
  | nil => exact refl builder
  | cons emission emissions inductionHypothesis =>
      exact (add builder emission).trans (inductionHypothesis _)

end Grows

/-! ## The block at the insertion point -/

/-- An instruction goes to the block at which the builder stands. -/
theorem At.emit
    {builder : Builder}
    {index : Nat}
    {block : Block}
    (here : builder.At index block)
    (op : Op) :
    (builder.emit op).At index (block.push op) := by
  obtain ⟨insertion, found⟩ := here
  have inside := (List.getElem?_eq_some_iff.1 found).1
  simp only [Builder.emit, insertion, push, found]
  exact ⟨rfl, List.getElem?_set_self inside⟩

theorem At.blocks_emit
    {builder : Builder}
    {index : Nat}
    {block : Block}
    (here : builder.At index block)
    (op : Op) :
    (builder.emit op).blocks = builder.blocks.set index (block.push op) := by
  obtain ⟨insertion, found⟩ := here
  simp only [Builder.emit, insertion, push, found]

theorem At.add
    {builder : Builder}
    {index : Nat}
    {block : Block}
    (here : builder.At index block)
    (emission : Emission) :
    (builder.add emission).At index (block.push emission.op) := by
  have allocated : (builder.allocate emission.hint emission.type).2.At index block := here
  exact allocated.emit emission.op

/-- Straight-line code goes to the block at which the builder stands. -/
theorem At.addAll
    {builder : Builder}
    {index : Nat}
    {block : Block}
    (here : builder.At index block)
    (emissions : List Emission) :
    (builder.addAll emissions).At index
      { block with ops := block.ops ++ Lowering.opsOf emissions } := by
  induction emissions generalizing builder block with
  | nil => simpa [Lowering.opsOf] using here
  | cons emission emissions inductionHypothesis =>
      have next := inductionHypothesis (here.add emission)
      simpa [Block.push, Lowering.opsOf] using next

theorem At.createBlock
    {builder : Builder}
    {index : Nat}
    {block : Block}
    (here : builder.At index block)
    (hint : String) :
    (builder.createBlock hint).2.At index block := by
  obtain ⟨insertion, found⟩ := here
  have inside := (List.getElem?_eq_some_iff.1 found).1
  refine ⟨insertion, ?_⟩
  rw [← found]
  exact List.getElem?_append_left inside

theorem At.isTerminated
    {builder : Builder}
    {index : Nat}
    {block : Block}
    (here : builder.At index block) :
    builder.isTerminated = block.isTerminated := by
  simp [Builder.isTerminated, here.1, here.2]

theorem length_createBlock
    (builder : Builder)
    (hint : String) :
    (builder.createBlock hint).2.blocks.length = builder.blocks.length + 1 := by
  simp [Builder.createBlock]

/-! ## New blocks -/

/-- Adds an empty block for each of the hints. -/
def createBlocks (builder : Builder) (hints : List String) : Builder :=
  hints.foldl (fun builder hint => (builder.createBlock hint).2) builder

@[simp] theorem length_createBlocks
    (builder : Builder)
    (hints : List String) :
    (builder.createBlocks hints).blocks.length = builder.blocks.length + hints.length := by
  induction hints generalizing builder with
  | nil => rfl
  | cons hint hints inductionHypothesis =>
      change ((builder.createBlock hint).2.createBlocks hints).blocks.length = _
      rw [inductionHypothesis, length_createBlock, List.length_cons]
      omega

@[simp] theorem insertion_createBlocks
    (builder : Builder)
    (hints : List String) :
    (builder.createBlocks hints).insertion = builder.insertion := by
  induction hints generalizing builder with
  | nil => rfl
  | cons hint hints inductionHypothesis =>
      change ((builder.createBlock hint).2.createBlocks hints).insertion = _
      rw [inductionHypothesis]
      rfl

theorem Grows.createBlocks
    (builder : Builder)
    (hints : List String) :
    builder.Grows (builder.createBlocks hints) := by
  induction hints generalizing builder with
  | nil => exact refl builder
  | cons hint hints inductionHypothesis =>
      exact (createBlock builder hint).trans (inductionHypothesis _)

theorem At.createBlocks
    {builder : Builder}
    {index : Nat}
    {block : Block}
    (here : builder.At index block)
    (hints : List String) :
    (builder.createBlocks hints).At index block := by
  induction hints generalizing builder with
  | nil => exact here
  | cons hint hints inductionHypothesis => exact inductionHypothesis (here.createBlock hint)

/-- The given block is there and has no ops yet. -/
def EmptyAt (builder : Builder) (index : Nat) : Prop :=
  ∃ label, builder.blocks[index]? = some ⟨label, []⟩

/-- A block that is empty stays so while the insertion point is elsewhere. -/
theorem EmptyAt.grows
    {before after : Builder}
    {index : Nat}
    (empty : before.EmptyAt index)
    (grows : before.Grows after)
    (elsewhere : before.insertion ≠ some index) :
    after.EmptyAt index := by
  obtain ⟨label, found⟩ := empty
  have inside := (List.getElem?_eq_some_iff.1 found).1
  exact ⟨label, (grows.others index inside elsewhere).trans found⟩

/-- A block that is empty stays so while another block is worked on. -/
theorem EmptyAt.position
    {builder final : Builder}
    {index other : Nat}
    (empty : builder.EmptyAt other)
    (grows : (builder.position index).Grows final)
    (different : index ≠ other) :
    final.EmptyAt other := by
  have moved : (builder.position index).EmptyAt other := empty
  refine moved.grows grows ?_
  rw [Builder.position, ne_eq, Option.some.injEq]
  exact different

/-- New blocks are empty. -/
theorem EmptyAt.createBlocks
    {builder : Builder}
    {hints : List String}
    {index : Nat}
    (new : builder.blocks.length ≤ index)
    (inside : index < builder.blocks.length + hints.length)
    (elsewhere : builder.insertion ≠ some index) :
    (builder.createBlocks hints).EmptyAt index := by
  induction hints generalizing builder with
  | nil =>
      rw [List.length_nil] at inside
      omega
  | cons hint hints inductionHypothesis =>
      change ((builder.createBlock hint).2.createBlocks hints).EmptyAt index
      by_cases first : index = builder.blocks.length
      · subst index
        have empty : (builder.createBlock hint).2.EmptyAt builder.blocks.length :=
          ⟨builder.freshName hint, by simp [Builder.createBlock]⟩
        exact empty.grows (.createBlocks _ hints) elsewhere
      · rw [List.length_cons] at inside
        refine inductionHypothesis ?_ ?_ elsewhere
        · rw [length_createBlock]
          omega
        · rw [length_createBlock]
          omega

/-- Ops after the insertion point are what the whole body has in its block beyond those
that are there. -/
theorem At.split
    {builder : Builder}
    {index : Nat}
    {block later : Block}
    (here : builder.At index block)
    {whole : Body}
    (initial : builder.body.Initial whole)
    (found : whole.blocks[index]? = some later) :
    ∃ rest, later.ops = block.ops ++ rest := by
  obtain ⟨other, otherFound, ⟨rest, ops⟩⟩ := initial.blocks index block here.2
  obtain rfl : later = other := by simpa [found] using otherFound
  exact ⟨rest, ops.symm⟩

end Builder
end Code

/-! ## The builders inside a conditional -/

namespace Lowering

open Code (Builder)

/-- Builds something and ends its last block with the given op, unless that is complete. -/
def ending (build : Build Unit) (op : Code.Op) : Build Unit := do
  build
  if (← get).isTerminated then
    pure ()
  else
    emit op

/-- A terminator is added exactly where the body has not ended its block. -/
theorem ending_ok
    {build : Build Unit}
    {op : Code.Op}
    {builder final : Builder}
    (built : ending build op builder = .ok () final) :
    ∃ middle, build builder = .ok () middle ∧
      final = if middle.isTerminated then middle else middle.emit op := by
  unfold ending at built
  obtain ⟨_, middle, bodyBuilt, built⟩ := (Build.bind_eq_ok_iff ..).1 built
  refine ⟨middle, bodyBuilt, ?_⟩
  obtain ⟨_, _, same, built⟩ := (Build.bind_eq_ok_iff ..).1 built
  cases same
  by_cases ended : middle.isTerminated = true
  · simp only [ended, if_true] at built ⊢
    cases built
    rfl
  · simp only [ended, Bool.false_eq_true, if_false] at built ⊢
    cases built
    rfl

/-- An arm is built in its own block and then jumps to where the arms meet. -/
theorem arm_eq_ending
    (index merge : Nat)
    (build : Build Unit)
    (builder : Builder) :
    arm index merge build builder = ending build (.jump merge) (builder.position index) :=
  rfl

/-- The body of a function is its block, with an empty return at the end. -/
theorem lowerSource_block_eq_ending
    (table : Code.Module)
    (scope : Scope)
    (block : Block) :
    lowerSource table scope (.block block) = ending (lowerBlock table scope block) (.ret none) :=
  rfl

/-- A conditional without other arms: its condition, its blocks and its arm. -/
theorem conditional_none_ok
    {table : Code.Module}
    {scope : Scope}
    {condition : Expr}
    {thenArm : Build Unit}
    {builder final : Builder}
    (built : conditional (lowerExpr table scope condition) thenArm none builder = .ok () final) :
    ∃ emissions flag size last,
      conditionCode table scope condition builder.registers.length = ⟨emissions, .ok flag⟩ ∧
      size = (builder.addAll emissions).blocks.length ∧
      arm size (size + 1) thenArm
        (((builder.addAll emissions).createBlocks ["then", "ifcont"]).emit
          (.branch flag size (size + 1))) = .ok () last ∧
      final = last.position (size + 1) := by
  rw [conditional_eq_build] at built
  obtain ⟨flag, _, conditionBuilt, built⟩ := (Build.bind_eq_ok_iff ..).1 built
  obtain ⟨emissions, made, rfl⟩ := (Straight.build_eq_ok_iff ..).1 conditionBuilt
  obtain ⟨_, _, same, built⟩ := (Build.bind_eq_ok_iff ..).1 built
  cases same
  obtain ⟨_, _, same, built⟩ := (Build.bind_eq_ok_iff ..).1 built
  cases same
  obtain ⟨_, _, same, built⟩ := (Build.bind_eq_ok_iff ..).1 built
  cases same
  obtain ⟨_, last, armBuilt, same⟩ := (Build.bind_eq_ok_iff ..).1 built
  cases same
  have merge : ((builder.addAll emissions).createBlock "then").2.blocks.length =
      (builder.addAll emissions).blocks.length + 1 := Builder.length_createBlock ..
  refine ⟨emissions, flag, _, last, made, rfl, ?_, ?_⟩
  · rw [← merge]
    exact armBuilt
  · rw [← merge]
    rfl

/-- A conditional with another arm: its condition, its blocks and its arms. -/
theorem conditional_some_ok
    {table : Code.Module}
    {scope : Scope}
    {condition : Expr}
    {thenArm elseArm : Build Unit}
    {builder final : Builder}
    (built : conditional (lowerExpr table scope condition) thenArm (some elseArm) builder =
      .ok () final) :
    ∃ emissions flag size middle last,
      conditionCode table scope condition builder.registers.length = ⟨emissions, .ok flag⟩ ∧
      size = (builder.addAll emissions).blocks.length ∧
      arm size (size + 2) thenArm
        (((builder.addAll emissions).createBlocks ["then", "else", "ifcont"]).emit
          (.branch flag size (size + 1))) = .ok () middle ∧
      arm (size + 1) (size + 2) elseArm middle = .ok () last ∧
      final = last.position (size + 2) := by
  rw [conditional_eq_build] at built
  obtain ⟨flag, _, conditionBuilt, built⟩ := (Build.bind_eq_ok_iff ..).1 built
  obtain ⟨emissions, made, rfl⟩ := (Straight.build_eq_ok_iff ..).1 conditionBuilt
  obtain ⟨_, _, same, built⟩ := (Build.bind_eq_ok_iff ..).1 built
  cases same
  obtain ⟨_, _, same, built⟩ := (Build.bind_eq_ok_iff ..).1 built
  cases same
  obtain ⟨_, _, same, built⟩ := (Build.bind_eq_ok_iff ..).1 built
  cases same
  obtain ⟨_, _, same, built⟩ := (Build.bind_eq_ok_iff ..).1 built
  cases same
  obtain ⟨_, middle, thenBuilt, built⟩ := (Build.bind_eq_ok_iff ..).1 built
  obtain ⟨_, last, elseBuilt, same⟩ := (Build.bind_eq_ok_iff ..).1 built
  cases same
  have other : ((builder.addAll emissions).createBlock "then").2.blocks.length =
      (builder.addAll emissions).blocks.length + 1 := Builder.length_createBlock ..
  have merge : (((builder.addAll emissions).createBlock "then").2.createBlock
      "else").2.blocks.length = (builder.addAll emissions).blocks.length + 2 := by
    rw [Builder.length_createBlock, other]
  refine ⟨emissions, flag, _, middle, last, made, rfl, ?_, ?_, ?_⟩
  · rw [← merge, ← other]
    exact thenBuilt
  · rw [← merge, ← other]
    exact elseBuilt
  · rw [← merge]
    rfl

/-! ## Pieces of lowering -/

/-- The steps of which the lowering of a function body is made. -/
inductive Piece (table : Code.Module) (scope : Scope) : Build Unit → Prop where
  | nothing : Piece table scope (pure ())
  | refused (error : LoweringError) : Piece table scope (throw error)
  | evaluation (expr : Expr) :
      Piece table scope (lowerExpr table scope expr >>= fun _ => pure ())
  | ret (value : Return) : Piece table scope (lowerReturn table scope value)
  | sequence {first second : Build Unit}
      (firstPiece : Piece table scope first)
      (secondPiece : Piece table scope second) :
      Piece table scope (first >>= fun _ => second)
  | conditional (condition : Expr) {thenArm : Build Unit} {elseArm : Option (Build Unit)}
      (thenPiece : Piece table scope thenArm)
      (elsePiece : ∀ build, elseArm = some build → Piece table scope build) :
      Piece table scope (conditional (lowerExpr table scope condition) thenArm elseArm)

mutual

/-- Every statement of a body is built from the pieces. -/
theorem lowerBodyStmt_piece
    (table : Code.Module)
    (scope : Scope)
    (statement : Stmt) :
    Piece table scope (lowerBodyStmt table scope statement) := by
  cases statement with
  | expression proto body =>
      rw [lowerBodyStmt]
      exact .evaluation body
  | block body =>
      rw [lowerBodyStmt]
      exact lowerBlock_piece table scope body
  | ret value =>
      rw [lowerBodyStmt]
      exact .ret value
  | branch condition thenBlock elseIf elseBlock span =>
      have thenPiece := lowerBlock_piece table scope thenBlock
      cases elseIf with
      | some other =>
          rw [lowerBodyStmt]
          refine .conditional condition thenPiece ?_
          intro build same
          cases same
          exact lowerBodyStmt_piece table scope other
      | none =>
          cases elseBlock with
          | some other =>
              rw [lowerBodyStmt]
              refine .conditional condition thenPiece ?_
              intro build same
              cases same
              exact lowerBlock_piece table scope other
          | none =>
              rw [lowerBodyStmt]
              refine .conditional condition thenPiece ?_
              intro build same
              cases same
  | prototype proto =>
      rw [lowerBodyStmt]
      exact .refused _
  | function proto body =>
      rw [lowerBodyStmt]
      exact .refused _

/-- Every block is built from the pieces. -/
theorem lowerBlock_piece
    (table : Code.Module)
    (scope : Scope)
    (block : Block) :
    Piece table scope (lowerBlock table scope block) := by
  cases block with
  | mk statements tail =>
      have first := lowerStmts_piece table scope statements
      cases tail with
      | none =>
          rw [lowerBlock]
          exact first.sequence .nothing
      | some value =>
          rw [lowerBlock]
          exact first.sequence (.ret value)

theorem lowerStmts_piece
    (table : Code.Module)
    (scope : Scope)
    (statements : List Stmt) :
    Piece table scope (lowerStmts table scope statements) := by
  cases statements with
  | nil =>
      rw [lowerStmts]
      exact .nothing
  | cons statement statements =>
      rw [lowerStmts]
      exact .sequence (lowerBodyStmt_piece table scope statement)
        (lowerStmts_piece table scope statements)

end

/-! ## Lowering only adds -/

/-- When the piece of lowering goes through, it has only added to the builder. -/
def Growing (build : Build Unit) : Prop :=
  ∀ builder final, build builder = .ok () final → builder.Grows final

theorem Growing.pure : Growing (Pure.pure ()) := by
  intro builder final built
  cases built
  exact .refl builder

theorem Growing.emit (op : Code.Op) : Growing (Lowering.emit op) := by
  intro builder final built
  cases built
  exact .emit builder op

/-- An expression and what comes after it. -/
theorem Growing.expression
    (table : Code.Module)
    (scope : Scope)
    (expr : Expr)
    {next : Code.Operand → Build Unit}
    (nextGrowing : ∀ operand, Growing (next operand)) :
    Growing (lowerExpr table scope expr >>= next) := by
  intro builder final built
  obtain ⟨operand, middle, exprBuilt, nextBuilt⟩ := (Build.bind_eq_ok_iff ..).1 built
  rw [lowerExpr_eq_build, Straight.build_eq_ok_iff] at exprBuilt
  obtain ⟨emissions, _, rfl⟩ := exprBuilt
  exact (Builder.Grows.addAll builder emissions).trans (nextGrowing operand _ _ nextBuilt)

/-- Growing steps one after another grow together. -/
theorem Growing.sequence
    {first second : Build Unit}
    (firstGrowing : Growing first)
    (secondGrowing : Growing second) :
    Growing (first >>= fun _ => second) := by
  intro builder final built
  obtain ⟨_, middle, firstBuilt, secondBuilt⟩ := (Build.bind_eq_ok_iff ..).1 built
  exact (firstGrowing _ _ firstBuilt).trans (secondGrowing _ _ secondBuilt)

theorem lowerReturn_growing
    (table : Code.Module)
    (scope : Scope)
    (value : Return) :
    Growing (lowerReturn table scope value) := by
  unfold lowerReturn
  cases value.value with
  | none => exact .emit _
  | some expr => exact .expression table scope expr fun operand => .emit _

/-- Ending a body makes it grow. -/
theorem Growing.ending
    {build : Build Unit}
    (growing : Growing build)
    (op : Code.Op) :
    Growing (Lowering.ending build op) := by
  intro builder final built
  obtain ⟨middle, bodyBuilt, rfl⟩ := ending_ok built
  have grows := growing _ _ bodyBuilt
  split
  · exact grows
  · exact grows.trans (.emit _ _)

/-- An arm grows from its own block. -/
theorem Growing.arm
    {build : Build Unit}
    (growing : Growing build)
    {index merge : Nat}
    {builder final : Builder}
    (built : Lowering.arm index merge build builder = .ok () final) :
    (builder.position index).Grows final := by
  rw [arm_eq_ending] at built
  exact growing.ending _ _ _ built

/-- The blocks of a conditional are new. -/
theorem grows_forked
    (builder : Builder)
    (emissions : List Emission)
    (hints : List String)
    (op : Code.Op) :
    builder.Grows (((builder.addAll emissions).createBlocks hints).emit op) ∧
      (builder.addAll emissions).blocks.length + hints.length ≤
        (((builder.addAll emissions).createBlocks hints).emit op).blocks.length := by
  have created := Builder.Grows.createBlocks (builder.addAll emissions) hints
  have emitted := Builder.Grows.emit ((builder.addAll emissions).createBlocks hints) op
  refine ⟨(Builder.Grows.addAll builder emissions).trans (created.trans emitted), ?_⟩
  rw [← Builder.length_createBlocks]
  exact emitted.length_le

/-- The blocks of a conditional are empty at the branch. -/
theorem forked_emptyAt
    {builder : Builder}
    {index : Nat}
    {block : Code.Block}
    (here : builder.At index block)
    (emissions : List Emission)
    (hints : List String)
    (op : Code.Op)
    (other : Nat)
    (new : (builder.addAll emissions).blocks.length ≤ other)
    (inside : other < (builder.addAll emissions).blocks.length + hints.length) :
    (((builder.addAll emissions).createBlocks hints).emit op).EmptyAt other := by
  have hereAfter := here.addAll emissions
  have old := (List.getElem?_eq_some_iff.1 hereAfter.2).1
  have elsewhere : (builder.addAll emissions).insertion ≠ some other := by
    rw [hereAfter.1, ne_eq, Option.some.injEq]
    omega
  refine (Builder.EmptyAt.createBlocks new inside elsewhere).grows (.emit _ op) ?_
  rw [Builder.insertion_createBlocks]
  exact elsewhere

/-- A branch makes the body grow. -/
theorem Growing.conditional
    (table : Code.Module)
    (scope : Scope)
    (condition : Expr)
    {thenArm : Build Unit}
    (thenGrowing : Growing thenArm)
    {elseArm : Option (Build Unit)}
    (elseGrowing : ∀ build, elseArm = some build → Growing build) :
    Growing (Lowering.conditional (lowerExpr table scope condition) thenArm elseArm) := by
  intro builder final built
  have added := fun emissions => (Builder.Grows.addAll builder emissions).length_le
  cases elseArm with
  | none =>
      obtain ⟨emissions, flag, size, last, _, rfl, armBuilt, rfl⟩ := conditional_none_ok built
      obtain ⟨forked, wide⟩ := grows_forked builder emissions ["then", "ifcont"]
        (.branch flag (builder.addAll emissions).blocks.length
          ((builder.addAll emissions).blocks.length + 1))
      have longer := added emissions
      simp only [List.length_cons, List.length_nil] at wide
      have atThen := forked.position longer (by omega)
      have thenGrows := thenGrowing.arm armBuilt
      have afterThen := atThen.trans thenGrows
      have longest := thenGrows.length_le
      simp only [Builder.position] at longest
      exact afterThen.position (by omega) (by omega)
  | some elseArm =>
      obtain ⟨emissions, flag, size, middle, last, _, rfl, thenBuilt, elseBuilt, rfl⟩ :=
        conditional_some_ok built
      obtain ⟨forked, wide⟩ := grows_forked builder emissions ["then", "else", "ifcont"]
        (.branch flag (builder.addAll emissions).blocks.length
          ((builder.addAll emissions).blocks.length + 1))
      have longer := added emissions
      simp only [List.length_cons, List.length_nil] at wide
      have atThen := forked.position longer (by omega)
      have thenGrows := thenGrowing.arm thenBuilt
      have longerThen := thenGrows.length_le
      have elseGrows := (elseGrowing elseArm rfl).arm elseBuilt
      have longerElse := elseGrows.length_le
      simp only [Builder.position] at longerThen longerElse
      have atElse := (atThen.trans thenGrows).position
        (show builder.blocks.length ≤ (builder.addAll emissions).blocks.length + 1 by omega)
        (by omega)
      exact (atElse.trans elseGrows).position (by omega) (by omega)

/-- Every piece of lowering only adds. -/
theorem Piece.growing
    {table : Code.Module}
    {scope : Scope}
    {build : Build Unit}
    (piece : Piece table scope build) :
    Growing build := by
  induction piece with
  | nothing => exact .pure
  | refused error =>
      intro builder final built
      cases built
  | evaluation expr => exact .expression table scope expr fun _ => .pure
  | ret value => exact lowerReturn_growing table scope value
  | sequence _ _ firstGrowing secondGrowing => exact firstGrowing.sequence secondGrowing
  | conditional condition _ _ thenGrowing elseGrowing =>
      exact .conditional table scope condition thenGrowing elseGrowing

/-! ## Invariants -/

/-- The names of the blocks of a conditional, without and with another arm. -/
def armHints : List (List String) :=
  [["then", "ifcont"], ["then", "else", "ifcont"]]

/-- A property of builders that the single steps of lowering keep. -/
structure Invariant
    (table : Code.Module)
    (scope : Scope)
    (holds : Builder → Prop) : Prop where
  /-- An expression, whether or not its value is returned. -/
  evaluation : ∀ {expr : Expr} {builder : Builder} {emissions : List Emission}
    {operand : Code.Operand},
    exprCode table scope expr builder.registers.length = ⟨emissions, .ok operand⟩ →
      holds builder →
        holds (builder.addAll emissions) ∧
          holds ((builder.addAll emissions).emit (.ret (some operand)))
  finish : ∀ {builder : Builder}, holds builder → holds (builder.emit (.ret none))
  jump : ∀ {builder : Builder} {target : Nat}, target < builder.blocks.length →
    holds builder → holds (builder.emit (.jump target))
  /-- The condition of a conditional, with the branch to the first two of its blocks. -/
  fork : ∀ {condition : Expr} {builder : Builder} {emissions : List Emission}
    {flag : Code.Operand} (hints : List String),
    conditionCode table scope condition builder.registers.length = ⟨emissions, .ok flag⟩ →
      hints ∈ armHints → holds builder →
        holds (((builder.addAll emissions).createBlocks hints).emit
          (.branch flag (builder.addAll emissions).blocks.length
            ((builder.addAll emissions).blocks.length + 1)))
  position : ∀ {builder : Builder} {index : Nat}, index < builder.blocks.length →
    holds builder → holds (builder.position index)

/-- When the piece of lowering goes through, it keeps the property. -/
def Keeps (holds : Builder → Prop) (build : Build Unit) : Prop :=
  ∀ builder final, build builder = .ok () final → holds builder → holds final

namespace Invariant

variable {table : Code.Module} {scope : Scope} {holds : Builder → Prop}

/-- An expression whose value is returned. -/
theorem returned
    (invariant : Invariant table scope holds)
    (expr : Expr) :
    Keeps holds
      (lowerExpr table scope expr >>= fun operand => Lowering.emit (.ret (some operand))) := by
  intro builder final built before
  rw [lowerExpr_eq_build] at built
  obtain ⟨operand, middle, exprBuilt, same⟩ := (Build.bind_eq_ok_iff ..).1 built
  obtain ⟨emissions, made, rfl⟩ := (Straight.build_eq_ok_iff ..).1 exprBuilt
  cases same
  exact (invariant.evaluation made before).2

/-- A return keeps the invariant. -/
theorem ret
    (invariant : Invariant table scope holds)
    (value : Return) :
    Keeps holds (lowerReturn table scope value) := by
  unfold lowerReturn
  cases value.value with
  | some expr => exact invariant.returned expr
  | none =>
      intro builder final built before
      cases built
      exact invariant.finish before

/-- An arm jumps to a block that is there. -/
theorem arm
    (invariant : Invariant table scope holds)
    {build : Build Unit}
    (keeps : Keeps holds build)
    (growing : Growing build)
    {index merge : Nat}
    {builder final : Builder}
    (built : Lowering.arm index merge build builder = .ok () final)
    (inside : index < builder.blocks.length)
    (mergeInside : merge < builder.blocks.length)
    (before : holds builder) :
    holds final := by
  rw [arm_eq_ending] at built
  obtain ⟨middle, bodyBuilt, rfl⟩ := ending_ok built
  have kept := keeps _ _ bodyBuilt (invariant.position inside before)
  split
  · exact kept
  · exact invariant.jump (Nat.lt_of_lt_of_le mergeInside (growing _ _ bodyBuilt).length_le) kept

/-- A branch keeps the invariant if its arms do. -/
theorem conditional
    (invariant : Invariant table scope holds)
    (condition : Expr)
    {thenArm : Build Unit}
    (thenGrowing : Growing thenArm)
    (thenKeeps : Keeps holds thenArm)
    {elseArm : Option (Build Unit)}
    (elseGrowing : ∀ build, elseArm = some build → Growing build)
    (elseKeeps : ∀ build, elseArm = some build → Keeps holds build) :
    Keeps holds (Lowering.conditional (lowerExpr table scope condition) thenArm elseArm) := by
  intro builder final built before
  cases elseArm with
  | none =>
      obtain ⟨emissions, flag, size, last, made, rfl, armBuilt, rfl⟩ := conditional_none_ok built
      have wide := (grows_forked builder emissions ["then", "ifcont"] (.branch flag
        (builder.addAll emissions).blocks.length
        ((builder.addAll emissions).blocks.length + 1))).2
      simp only [List.length_cons, List.length_nil] at wide
      have longer := (thenGrowing.arm armBuilt).length_le
      simp only [Builder.position] at longer
      have forked := invariant.fork ["then", "ifcont"] made (.head _) before
      have afterThen := invariant.arm thenKeeps thenGrowing armBuilt (by omega) (by omega) forked
      exact invariant.position (by omega) afterThen
  | some elseArm =>
      obtain ⟨emissions, flag, size, middle, last, made, rfl, thenBuilt, elseBuilt, rfl⟩ :=
        conditional_some_ok built
      have wide := (grows_forked builder emissions ["then", "else", "ifcont"] (.branch flag
        (builder.addAll emissions).blocks.length
        ((builder.addAll emissions).blocks.length + 1))).2
      simp only [List.length_cons, List.length_nil] at wide
      have elseGrows := elseGrowing elseArm rfl
      have longer := (thenGrowing.arm thenBuilt).length_le
      have longest := (elseGrows.arm elseBuilt).length_le
      simp only [Builder.position] at longer longest
      have forked := invariant.fork ["then", "else", "ifcont"] made (.tail _ (.head _)) before
      have afterThen := invariant.arm thenKeeps thenGrowing thenBuilt (by omega) (by omega) forked
      have afterElse := invariant.arm (elseKeeps elseArm rfl) elseGrows elseBuilt (by omega)
        (by omega) afterThen
      exact invariant.position (by omega) afterElse

/-- What the steps keep is kept by every piece of lowering. -/
theorem piece
    (invariant : Invariant table scope holds)
    {build : Build Unit}
    (piece : Piece table scope build) :
    Keeps holds build := by
  induction piece with
  | nothing =>
      intro builder final built before
      cases built
      exact before
  | refused error =>
      intro builder final built
      cases built
  | evaluation expr =>
      intro builder final built before
      rw [lowerExpr_eq_build] at built
      obtain ⟨operand, middle, exprBuilt, same⟩ := (Build.bind_eq_ok_iff ..).1 built
      obtain ⟨emissions, made, rfl⟩ := (Straight.build_eq_ok_iff ..).1 exprBuilt
      cases same
      exact (invariant.evaluation made before).1
  | ret value => exact invariant.ret value
  | sequence _ _ firstKeeps secondKeeps =>
      intro builder final built before
      obtain ⟨_, middle, firstBuilt, secondBuilt⟩ := (Build.bind_eq_ok_iff ..).1 built
      exact secondKeeps _ _ secondBuilt (firstKeeps _ _ firstBuilt before)
  | conditional condition thenPiece elsePiece thenKeeps elseKeeps =>
      exact invariant.conditional condition thenPiece.growing thenKeeps
        (fun build same => (elsePiece build same).growing) elseKeeps

/-- What the steps keep holds of the whole body. -/
theorem source
    (invariant : Invariant table scope holds)
    (source : Source) :
    Keeps holds (lowerSource table scope source) := by
  intro builder final built before
  cases source with
  | block body =>
      rw [lowerSource_block_eq_ending] at built
      obtain ⟨middle, bodyBuilt, rfl⟩ := ending_ok built
      have kept := invariant.piece (lowerBlock_piece table scope body) _ _ bodyBuilt before
      split
      · exact kept
      · exact invariant.finish kept
  | expr body => exact invariant.returned body builder final built before

end Invariant

end Lowering
end ScalarScript
