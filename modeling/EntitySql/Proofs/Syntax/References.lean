import EntitySql.Proofs.Except
import EntitySql.Proofs.Syntax.Texts

/-!
# What a select refers to

The references of a node are those it makes itself and those of its parts. So every reference made
anywhere inside a select is among the references of the select (`Node.Within.references`), however
deep it is nested. References are to names, and do not depend on the texts of a statement
(`coreReferences_mapTexts`).
-/

namespace EntitySql

/-! ## Clause by clause -/

/-- A list refers to what its members refer to, in their order. -/
theorem listReferences_eq (exps : List Exp) :
    listReferences exps = exps.flatMap Exp.references := by
  induction exps with
  | nil => rw [listReferences, List.flatMap_nil]
  | cons exp exps ih => rw [listReferences, ih, List.flatMap_cons]

/-- An expression that is missing refers to nothing. -/
theorem optionReferences_eq (exp : Option Exp) :
    optionReferences exp = exp.toList.flatMap Exp.references := by
  cases exp with
  | none => rw [optionReferences]; rfl
  | some exp => rw [optionReferences, Option.toList_some, List.flatMap_singleton]

/-- A call refers to what its arguments refer to. -/
theorem callReferences_eq (c : FunctionCall Exp) :
    callReferences c = c.args.flatMap Exp.references := by
  rw [callReferences, listReferences_eq]

/-- Branches refer to what their conditions and values refer to. -/
theorem branchReferences_eq (branches : List (CaseBranch Exp)) :
    branchReferences branches = (branches.flatMap (·.exps)).flatMap Exp.references := by
  induction branches with
  | nil => rw [branchReferences]; rfl
  | cons branch branches ih =>
    rw [branchReferences, ih, List.flatMap_cons, List.flatMap_append]
    simp [CaseBranch.exps]

/-- Keys of partitions refer to what their expressions refer to. -/
theorem partitionReferences_eq (keys : List (PartitionKey Exp)) :
    partitionReferences keys = (keys.map (·.exp)).flatMap Exp.references := by
  induction keys with
  | nil => rw [partitionReferences]; rfl
  | cons key keys ih => rw [partitionReferences, ih, List.map_cons, List.flatMap_cons]

/-- Keys of orders refer to what their expressions refer to. -/
theorem sortReferences_eq (keys : List (SortKey Exp)) :
    sortReferences keys = (keys.map (·.exp)).flatMap Exp.references := by
  induction keys with
  | nil => rw [sortReferences]; rfl
  | cons key keys ih => rw [sortReferences, ih, List.map_cons, List.flatMap_cons]

/-- A bound refers to what its offset refers to. -/
theorem boundReferences_eq (bound : FrameBound Exp) :
    boundReferences bound = bound.exps.flatMap Exp.references := by
  cases bound <;> simp [boundReferences, FrameBound.exps]

/-- An extent refers to what its offsets refer to. -/
theorem extentReferences_eq (extent : FrameExtent Exp) :
    extentReferences extent = extent.exps.flatMap Exp.references := by
  cases extent with
  | start bound => cases bound <;> simp [extentReferences, FrameExtent.exps, FrameStart.exps]
  | between first second =>
    rw [extentReferences, boundReferences_eq, boundReferences_eq, ← List.flatMap_append]
    rfl

/-- A window refers to what its expressions refer to. -/
theorem windowReferences_eq (window : WindowSpec Exp) :
    windowReferences window = window.exps.flatMap Exp.references := by
  have hframe (frame : Option (WindowFrame Exp)) : frameReferences frame
      = (frame.toList.flatMap (·.extent.exps)).flatMap Exp.references := by
    cases frame with
    | none => rw [frameReferences]; rfl
    | some frame =>
      rw [frameReferences, extentReferences_eq, Option.toList_some, List.flatMap_singleton]
  rw [windowReferences, partitionReferences_eq, sortReferences_eq, hframe, WindowSpec.exps,
    List.flatMap_append, List.flatMap_append]

/-- A window that is only named refers to nothing. -/
theorem overReferences_eq (overWindow : WindowOver Exp) :
    overReferences overWindow = overWindow.exps.flatMap Exp.references := by
  cases overWindow with
  | spec window => rw [overReferences, windowReferences_eq]; rfl
  | name x => rw [overReferences]; rfl

/-- Windows with a name refer to what their expressions refer to. -/
theorem windowListReferences_eq (windows : List (WindowDefinition Exp)) :
    windowListReferences windows
      = (windows.flatMap (·.window.exps)).flatMap Exp.references := by
  induction windows with
  | nil => rw [windowListReferences]; rfl
  | cons definition windows ih =>
    rw [windowListReferences, ih, windowReferences_eq, List.flatMap_cons, List.flatMap_append]

/-- Items refer to what their expressions refer to. -/
theorem itemReferences_eq (items : List (SelectItem Exp)) :
    itemReferences items = (items.map (·.exp)).flatMap Exp.references := by
  induction items with
  | nil => rw [itemReferences]; rfl
  | cons item items ih => rw [itemReferences, ih, List.map_cons, List.flatMap_cons]

/-- A limit refers to what its count and its offset refer to. -/
theorem limitReferences_eq (limit : Option (Limit Exp)) :
    limitReferences limit = (limit.toList.flatMap (·.exps)).flatMap Exp.references := by
  cases limit with
  | none => rw [limitReferences]; rfl
  | some limit =>
    rw [limitReferences, optionReferences_eq, Option.toList_some, List.flatMap_singleton,
      Limit.exps, List.flatMap_cons]

/-- A list refers to what its members refer to, in their order. -/
theorem sourceListReferences_eq (sources : List Source) :
    sourceListReferences sources = sources.flatMap Source.references := by
  induction sources with
  | nil => rw [sourceListReferences]; rfl
  | cons source sources ih => rw [sourceListReferences, ih, List.flatMap_cons]

/-- The references of a single select, clause by clause. -/
theorem coreReferences_eq (c : SelectCore Exp Source) :
    coreReferences c = (c.items.map (·.exp)).flatMap Exp.references
      ++ c.sources.flatMap Source.references ++ c.condition.toList.flatMap Exp.references
      ++ c.groupBy.flatMap Exp.references ++ c.having.toList.flatMap Exp.references
      ++ (c.windows.flatMap (·.window.exps)).flatMap Exp.references
      ++ (c.orderBy.map (·.exp)).flatMap Exp.references
      ++ (c.limit.toList.flatMap (·.exps)).flatMap Exp.references := by
  rw [coreReferences, itemReferences_eq, sourceListReferences_eq, optionReferences_eq,
    listReferences_eq, optionReferences_eq, windowListReferences_eq, sortReferences_eq,
    limitReferences_eq]

/-- A compound refers to what its single selects refer to. -/
theorem selectReferences_eq (w : Select Exp Source) :
    selectReferences w = w.cores.flatMap coreReferences := by
  have harms (arms : List (CompoundArm Exp Source)) :
      armReferences arms = (arms.map (·.core)).flatMap coreReferences := by
    induction arms with
    | nil => rw [armReferences]; rfl
    | cons arm arms ih => rw [armReferences, ih, List.map_cons, List.flatMap_cons]
  rw [selectReferences, harms, Select.cores, List.flatMap_cons]

/-- A join refers to what its operands and its condition refer to. -/
theorem Source.references_join (lhs rhs : Source) (kind : JoinKind Exp) :
    (Source.join lhs rhs kind).references
      = lhs.references ++ rhs.references ++ kind.exps.flatMap Exp.references := by
  cases kind <;> simp [references, JoinKind.exps]

/-! ## References inside a node -/

/-- The references made by a node. -/
def Node.references : Node → List Reference
  | .exp e => e.references
  | .source s => s.references
  | .core c => coreReferences c
  | .select w => selectReferences w

-- makes the equations of the definition before the proofs that use them
attribute [local simp] Exp.references

/-- An expression refers to what its parts refer to. -/
theorem Exp.references_subset {e : Exp} {m : Node} (h : m ∈ e.parts) :
    m.references ⊆ e.references := by
  have hexps {exps : List Exp} (hparts : e.parts = exps.map .exp) :
      m.references ⊆ exps.flatMap Exp.references := by
    rw [hparts] at h
    obtain ⟨a, ha, rfl⟩ := List.mem_map.1 h
    exact fun r hr => List.mem_flatMap.2 ⟨a, ha, hr⟩
  cases e with
  | literal | parameter | property | enumerator | extractProperty | extractInstance | typeList =>
    cases h
  | call c => rw [references, callReferences_eq]; exact hexps rfl
  | list values => rw [references, listReferences_eq]; exact hexps rfl
  | case branches otherwise type =>
    rw [references, branchReferences_eq, optionReferences_eq, ← List.flatMap_append]
    exact hexps rfl
  | window c filter overWindow =>
    rw [references, callReferences_eq, optionReferences_eq, overReferences_eq,
      ← List.flatMap_append, ← List.flatMap_append]
    exact hexps rfl
  | navigation value =>
    rw [references, optionReferences_eq, ← List.flatMap_cons]
    exact List.subset_cons_of_subset _ (hexps rfl)
  | like operand pattern escape negated =>
    rw [references, optionReferences_eq, List.append_assoc, ← List.flatMap_cons,
      ← List.flatMap_cons]
    exact hexps rfl
  | cast | sign | not | subquery | subqueryTest =>
    obtain rfl := List.mem_singleton.1 h
    rw [references]
    exact List.Subset.refl _
  | arithmetic | boolean | quantified | iif | between =>
    simp only [parts, List.mem_cons, List.not_mem_nil, or_false] at h
    rw [references]
    rcases h with rfl | rfl | rfl <;> simp [Node.references]

/-- A source refers to what its parts refer to. -/
theorem Source.references_subset {source : Source} {m : Node} (h : m ∈ source.parts) :
    m.references ⊆ source.references := by
  cases source with
  | ofClass | commonTable => cases h
  | join lhs rhs kind =>
    rw [references_join]
    simp only [parts, List.mem_cons, List.mem_map] at h
    rcases h with rfl | rfl | ⟨e, he, rfl⟩
    · simp [Node.references]
    · simp [Node.references]
    · exact fun r hr => List.mem_append_right _ (List.mem_flatMap.2 ⟨e, he, hr⟩)
  | subquery select aliasName =>
    obtain rfl := List.mem_singleton.1 h
    rw [references]
    exact List.Subset.refl _
  | function c aliasName =>
    obtain ⟨e, he, rfl⟩ := List.mem_map.1 h
    rw [references, callReferences_eq]
    exact fun r hr => List.mem_flatMap.2 ⟨e, he, hr⟩

/-- A single select refers to what its expressions refer to. -/
theorem SelectCore.references_subset {c : SelectCore Exp Source} {e : Exp} (h : e ∈ c.exps) :
    e.references ⊆ coreReferences c := by
  intro r hr
  have hexps : r ∈ c.exps.flatMap Exp.references := List.mem_flatMap.2 ⟨e, h, hr⟩
  rw [coreReferences_eq]
  simp only [exps, List.flatMap_append, List.mem_append] at hexps ⊢
  grind

/-- What a part of a node refers to, the node does. -/
theorem Node.references_subset {m n : Node} (h : m ∈ n.parts) : m.references ⊆ n.references := by
  cases n with
  | exp e => exact Exp.references_subset h
  | source s => exact Source.references_subset h
  | core c =>
    rw [Node.parts, List.mem_append, List.mem_map, List.mem_map] at h
    rcases h with ⟨e, he, rfl⟩ | ⟨s, hs, rfl⟩
    · exact SelectCore.references_subset he
    · intro r hr
      have hsources : r ∈ c.sources.flatMap Source.references := List.mem_flatMap.2 ⟨s, hs, hr⟩
      show r ∈ coreReferences c
      rw [coreReferences_eq]
      simp only [List.mem_append, hsources, true_or, or_true]
  | select w =>
    obtain ⟨c, hc, rfl⟩ := List.mem_map.1 h
    intro r hr
    show r ∈ selectReferences w
    rw [selectReferences_eq]
    exact List.mem_flatMap.2 ⟨c, hc, hr⟩

/-- What is referred to anywhere inside a node, the node refers to. -/
theorem Node.Within.references {m n : Node} (h : m.Within n) : m.references ⊆ n.references := by
  induction h with
  | self => exact List.Subset.refl _
  | part hk _ ih => exact List.Subset.trans ih (Node.references_subset hk)

/-! ## References do not depend on texts -/

/-- A node refers to the same whatever its texts are. -/
def Node.RefersSame (f : String → String) : Node → Prop
  | .exp e => (e.mapTexts f).references = e.references
  | .source s => (s.mapTexts f).references = s.references
  | .core c => coreReferences (coreTexts f c) = coreReferences c
  | .select w => selectReferences (selectTexts f w) = selectReferences w

variable {f : String → String}

/-- References of a list stay if those of its members do. -/
theorem flatMap_references_map {exps : List Exp}
    (h : ∀ e ∈ exps, (e.mapTexts f).references = e.references) :
    (exps.map (·.mapTexts f)).flatMap Exp.references = exps.flatMap Exp.references := by
  rw [List.flatMap_map]
  exact List.flatMap_congr h

/-- The references of an expression stay if those of its parts do. -/
theorem Exp.references_mapTexts_of_parts {e : Exp} (h : ∀ m ∈ e.parts, m.RefersSame f) :
    (e.mapTexts f).references = e.references := by
  have hexps {exps : List Exp} (hparts : e.parts = exps.map .exp) :
      ∀ e ∈ exps, (e.mapTexts f).references = e.references :=
    fun e he => h (.exp e) (hparts ▸ List.mem_map_of_mem he)
  cases e with
  | literal | enumerator | parameter | property | extractProperty | extractInstance | typeList =>
    rw [mapTexts] <;> rfl
  | cast operand target =>
    rw [mapTexts, references, references, h (.exp operand) (List.mem_cons_self ..)]
  | sign op operand type =>
    rw [mapTexts, references, references, h (.exp operand) (List.mem_cons_self ..)]
  | not operand parenthesized =>
    rw [mapTexts, references, references, h (.exp operand) (List.mem_cons_self ..)]
  | arithmetic lhs op rhs type parenthesized =>
    rw [mapTexts, references, references, h (.exp lhs) (by simp [parts]),
      h (.exp rhs) (by simp [parts])]
  | boolean lhs op rhs parenthesized =>
    rw [mapTexts, references, references, h (.exp lhs) (by simp [parts]),
      h (.exp rhs) (by simp [parts])]
  | call c =>
    rw [mapTexts, references, references, callTexts_eq, callReferences_eq, callReferences_eq]
    exact flatMap_references_map (hexps rfl)
  | case branches otherwise type =>
    have hall := hexps rfl
    rw [mapTexts, references, references, branchTexts_eq, optionTexts_eq, branchReferences_eq,
      branchReferences_eq, optionReferences_eq, optionReferences_eq, CaseBranch.exps_map,
      Option.toList_map,
      flatMap_references_map fun e he => hall e (List.mem_append_left _ he),
      flatMap_references_map fun e he => hall e (List.mem_append_right _ he)]
  | iif condition consequent alternative type =>
    rw [mapTexts, references, references, h (.exp condition) (by simp [parts]),
      h (.exp consequent) (by simp [parts]), h (.exp alternative) (by simp [parts])]
  | navigation value =>
    have hall := hexps rfl
    rw [mapTexts, references, references, optionTexts_eq, optionReferences_eq,
      optionReferences_eq, Option.toList_map, hall _ (List.mem_cons_self ..),
      flatMap_references_map fun e he => hall e (List.mem_cons_of_mem _ he)]
  | subquery select =>
    rw [mapTexts, references, references, h (.select select) (List.mem_cons_self ..)]
  | subqueryTest test select =>
    rw [mapTexts, references, references, h (.select select) (List.mem_cons_self ..)]
  | list values =>
    rw [mapTexts, references, references, listTexts_eq, listReferences_eq, listReferences_eq]
    exact flatMap_references_map (hexps rfl)
  | window c filter overWindow =>
    have hall := hexps rfl
    rw [mapTexts, references, references, callTexts_eq, optionTexts_eq, overTexts_eq,
      callReferences_eq, callReferences_eq, optionReferences_eq, optionReferences_eq,
      overReferences_eq, overReferences_eq, WindowOver.exps_map, Option.toList_map,
      flatMap_references_map fun e he => hall e (List.mem_append_right _ he),
      flatMap_references_map fun e he => hall e (List.mem_append_left _
        (List.mem_append_right _ he))]
    refine congrArg (· ++ _ ++ _) (flatMap_references_map fun e he => ?_)
    exact hall e (List.mem_append_left _ (List.mem_append_left _ he))
  | between operand lower upper negated =>
    rw [mapTexts, references, references, h (.exp operand) (by simp [parts]),
      h (.exp lower) (by simp [parts]), h (.exp upper) (by simp [parts])]
  | like operand pattern escape negated =>
    have hall := hexps rfl
    rw [mapTexts, references, references, optionTexts_eq, optionReferences_eq,
      optionReferences_eq, Option.toList_map, hall operand (by simp), hall pattern (by simp),
      flatMap_references_map fun e he =>
        hall e (List.mem_cons_of_mem _ (List.mem_cons_of_mem _ he))]
  | quantified operand op quantifier select =>
    rw [mapTexts, references, references, h (.exp operand) (by simp [parts]),
      h (.select select) (by simp [parts])]

/-- The references of a source stay if those of its parts do. -/
theorem Source.references_mapTexts_of_parts {source : Source}
    (h : ∀ m ∈ source.parts, m.RefersSame f) :
    (source.mapTexts f).references = source.references := by
  cases source with
  | ofClass | commonTable => rw [mapTexts]
  | join lhs rhs kind =>
    have hkind : ∀ e ∈ kind.exps, (e.mapTexts f).references = e.references := fun e he =>
      h (.exp e) (List.mem_cons_of_mem _ (List.mem_cons_of_mem _ (List.mem_map_of_mem he)))
    rw [mapTexts, joinTexts_eq, references_join, references_join, JoinKind.exps_map,
      flatMap_references_map hkind, h (.source lhs) (by simp [parts]),
      h (.source rhs) (by simp [parts])]
  | subquery select aliasName =>
    rw [mapTexts, references, references, h (.select select) (List.mem_cons_self ..)]
  | function c aliasName =>
    rw [mapTexts, references, references, callTexts_eq, callReferences_eq, callReferences_eq]
    exact flatMap_references_map fun e he => h (.exp e) (List.mem_map_of_mem he)

/-- The references of a single select stay if those of its parts do. -/
theorem coreReferences_mapTexts_of_parts {c : SelectCore Exp Source}
    (h : ∀ m ∈ (Node.core c).parts, m.RefersSame f) :
    coreReferences (coreTexts f c) = coreReferences c := by
  have hexps : ∀ e ∈ c.exps, (e.mapTexts f).references = e.references := fun e he =>
    h (.exp e) (List.mem_append_left _ (List.mem_map_of_mem he))
  have hsources : ∀ s ∈ c.sources, (s.mapTexts f).references = s.references := fun s hs =>
    h (.source s) (List.mem_append_right _ (List.mem_map_of_mem hs))
  obtain ⟨quantifier, items, sources, condition, groupBy, having, windows, orderBy, limit⟩ := c
  simp only [SelectCore.exps, List.mem_append, or_imp, forall_and] at hexps
  obtain ⟨⟨⟨⟨⟨⟨hitems, hcondition⟩, hgroupBy⟩, hhaving⟩, hwindows⟩, horderBy⟩, hlimit⟩ := hexps
  have hsourceReferences : (sources.map (·.mapTexts f)).flatMap Source.references
      = sources.flatMap Source.references := by
    rw [List.flatMap_map]
    exact List.flatMap_congr hsources
  rw [coreTexts_eq, coreReferences_eq, coreReferences_eq]
  simp only [SelectCore.map, SelectItem.exps_map, SortKey.exps_map, WindowDefinition.exps_map,
    Limit.exps_map, hsourceReferences, Option.toList_map, flatMap_references_map hitems,
    flatMap_references_map hcondition,
    flatMap_references_map hgroupBy, flatMap_references_map hhaving,
    flatMap_references_map hwindows, flatMap_references_map horderBy,
    flatMap_references_map hlimit]

/-- Replacing texts leaves references alone. -/
theorem Node.refersSame (f : String → String) (n : Node) : n.RefersSame f := by
  induction n using Node.induction with
  | h n ih =>
    cases n with
    | exp e => exact Exp.references_mapTexts_of_parts ih
    | source s => exact Source.references_mapTexts_of_parts ih
    | core c => exact coreReferences_mapTexts_of_parts ih
    | select w =>
      show selectReferences (selectTexts f w) = selectReferences w
      rw [selectTexts_eq, selectReferences_eq, selectReferences_eq, Select.cores_map,
        List.flatMap_map]
      refine List.flatMap_congr fun c hc => ?_
      rw [← coreTexts_eq]
      exact ih (.core c) (List.mem_map_of_mem hc)

/-- A select refers to the same properties whatever its texts are. -/
theorem coreReferences_mapTexts (f : String → String) (c : SelectCore Exp Source) :
    coreReferences (coreTexts f c) = coreReferences c :=
  Node.refersSame f (.core c)

end EntitySql
