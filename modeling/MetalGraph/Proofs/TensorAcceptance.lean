import MetalGraph.Proofs.DirectLaunch
import MetalGraph.Proofs.MemoryBounds

set_option autoImplicit false

/- The MPSGraph descriptors that a graph accepts, with byte counts over unbounded integers. -/
namespace MetalGraph

open Eff

/-! ### Acceptable tensors -/

/-- The bytes of a tensor of single-precision numbers. -/
def float32Bytes (shape : List UInt64) : Nat := 4 * (shape.map UInt64.toNat).prod

/-- A byte count of zero stands for the bytes of the shape. -/
def MgMpsgraphTensorDesc.bytes (tensor : MgMpsgraphTensorDesc) (shape : List UInt64) : Nat :=
  if tensor.byteCount = 0 then float32Bytes shape else tensor.byteCount.toNat

/-- What a tensor descriptor with this buffer and this shape has to satisfy. -/
structure TensorAcceptable (tensor : MgMpsgraphTensorDesc) (buffer : MgBuffer)
    (shape : List UInt64) : Prop where
  size : sizeofMgMpsgraphTensorDesc ≤ tensor.size
  bufferGiven : tensor.buffer = some buffer
  shapeGiven : tensor.shape = some shape
  dataType : tensor.dataType = .float32
  layout : tensor.layout = .contiguous
  rank : 1 ≤ shape.length
  dimensions : ∀ dimension ∈ shape, dimension ≠ 0
  offset : tensor.byteOffset = 0
  base : buffer.byteOffset = 0
  representable : float32Bytes shape < 2 ^ 64
  covered : float32Bytes shape ≤ tensor.bytes shape
  inside : tensor.bytes shape ≤ buffer.length.toNat

/-- The stored tensor is the described one with its byte count filled in. -/
structure TensorStored (tensor : MgMpsgraphTensorDesc) (stored : MgMpsgraphTensor) : Prop where
  buffer : tensor.buffer = some stored.buffer
  shape : tensor.shape = some stored.shape
  byteOffset : stored.byteOffset = tensor.byteOffset
  byteCount : stored.byteCount.toNat = tensor.bytes stored.shape
  dataType : stored.dataType = tensor.dataType
  layout : stored.layout = tensor.layout

/-! ### Shapes -/

/-- Only single-precision tensors have an element size. -/
theorem tensorByteCount_iff {shape : List UInt64} {dataType : MgTensorDataType}
    {required : UInt64} :
    mgShapeByteCount shape (mgTensorDataTypeSize dataType) = some required ↔
      dataType = .float32 ∧ 1 ≤ shape.length ∧ (∀ dimension ∈ shape, dimension ≠ 0) ∧
        required.toNat = float32Bytes shape := by
  have rank : 1 ≤ shape.length ↔ shape ≠ [] := List.length_pos_iff
  rw [mgShapeByteCount_iff, rank, float32Bytes, Nat.mul_comm 4]
  cases dataType with
  | other code => simp [mgTensorDataTypeSize]
  | float32 => simp [mgTensorDataTypeSize]

/-! ### Validation -/

section Validation

variable {desc : MgMpsgraphTensorDesc} {source : TensorSource}

theorem mgTensorLayoutValid_iff {layout : MgTensorLayout} :
    mgTensorLayoutValid layout = true ↔ layout = .contiguous := by
  cases layout <;> simp [mgTensorLayoutValid]

/-- What is read through the pointers of a descriptor. -/
structure ReadFrom (desc : MgMpsgraphTensorDesc) (source : TensorSource) : Prop where
  buffer : desc.buffer = some source.buffer
  shape : desc.shape = some source.shape
  byteOffset : source.byteOffset = desc.byteOffset
  byteCount : source.byteCount = desc.byteCount
  dataType : source.dataType = desc.dataType
  layout : source.layout = desc.layout

theorem tensorPointers_iff : tensorPointers desc = .ok source ↔
    ReadFrom desc source ∧ sizeofMgMpsgraphTensorDesc ≤ desc.size ∧
      desc.layout = .contiguous ∧ source.shape ≠ [] := by
  obtain ⟨size, buffer, byteOffset, byteCount, dataType, layout, shape⟩ := desc
  simp only [tensorPointers]
  constructor
  · intro success
    split at success
    · rename_i given dimensions
      simp only [except_bind_ok, demand_ok, except_pure_ok, exists_const, not_or, UInt64.not_lt,
        Bool.not_eq_false, mgTensorLayoutValid_iff] at success
      obtain ⟨⟨sized, filled, contiguous⟩, rfl⟩ := success
      exact ⟨⟨rfl, rfl, rfl, rfl, rfl, rfl⟩, sized, contiguous, filled⟩
    · cases success
  · rintro ⟨⟨given, dimensions, offset, count, type, stored⟩, sized, contiguous, filled⟩
    obtain ⟨_, _, _, _, _, _⟩ := source
    subst given dimensions offset count type stored
    simp only [except_bind_ok, demand_ok, except_pure_ok, exists_const, not_or, UInt64.not_lt,
      Bool.not_eq_false, mgTensorLayoutValid_iff, and_true]
    exact ⟨sized, filled, contiguous⟩

theorem ReadFrom.effectiveByteCount (read : ReadFrom desc source) {required : UInt64}
    (exact : required.toNat = float32Bytes source.shape) :
    (source.effectiveByteCount required).toNat = desc.bytes source.shape := by
  rw [TensorSource.effectiveByteCount, MgMpsgraphTensorDesc.bytes, read.byteCount]
  split
  · exact exact
  · rfl

/-- A tensor passes exactly if it is acceptable. -/
theorem mgValidateMpsgraphTensorDesc_iff : mgValidateMpsgraphTensorDesc desc = .ok source ↔
    ReadFrom desc source ∧ TensorAcceptable desc source.buffer source.shape := by
  simp only [mgValidateMpsgraphTensorDesc, except_bind_ok, tensorPointers_iff]
  constructor
  · rintro ⟨found, ⟨read, sized, contiguous, filled⟩, checked⟩
    rcases counted : mgShapeByteCount found.shape (mgTensorDataTypeSize found.dataType) with
      _ | required <;> simp only [counted, reduceCtorEq] at checked
    simp only [except_bind_ok, demand_ok, except_pure_ok, exists_const, not_or, UInt64.not_lt,
      not_not, Bool.not_eq_false, mgRangeValid_iff] at checked
    obtain ⟨⟨enough, offset, base, _, inside⟩, rfl⟩ := checked
    obtain ⟨type, rank, dimensions, exact⟩ := tensorByteCount_iff.mp counted
    have bytes := read.effectiveByteCount exact
    have below := required.toNat_lt
    rw [UInt64.le_iff_toNat_le, bytes, exact] at enough
    rw [offset, bytes, UInt64.toNat_zero, Nat.zero_add] at inside
    exact ⟨read,
      { size := sized
        bufferGiven := read.buffer
        shapeGiven := read.shape
        dataType := read.dataType ▸ type
        layout := contiguous
        rank := rank
        dimensions := dimensions
        offset := read.byteOffset ▸ offset
        base := base
        representable := exact ▸ below
        covered := enough
        inside := inside }⟩
  · rintro ⟨read, acceptable⟩
    have filled : source.shape ≠ [] := List.length_pos_iff.mp acceptable.rank
    have exact : (UInt64.ofNat (float32Bytes source.shape)).toNat = float32Bytes source.shape :=
      UInt64.toNat_ofNat_of_lt' acceptable.representable
    have counted : mgShapeByteCount source.shape (mgTensorDataTypeSize source.dataType) =
        some (UInt64.ofNat (float32Bytes source.shape)) :=
      tensorByteCount_iff.mpr
        ⟨read.dataType.trans acceptable.dataType, acceptable.rank, acceptable.dimensions, exact⟩
    have bytes := read.effectiveByteCount exact
    have positive : 0 < float32Bytes source.shape :=
      Nat.mul_pos (by omega) (prod_pos_of_nonzero acceptable.dimensions)
    refine ⟨source, ⟨read, acceptable.size, acceptable.layout, filled⟩, ?_⟩
    simp only [counted, except_bind_ok, demand_ok, except_pure_ok, exists_const, not_or,
      UInt64.not_lt, not_not, Bool.not_eq_false, mgRangeValid_iff, and_true,
      UInt64.le_iff_toNat_le, bytes, exact]
    have offset : source.byteOffset = 0 := read.byteOffset.trans acceptable.offset
    have covered := acceptable.covered
    have inside := acceptable.inside
    rw [offset, UInt64.toNat_zero]
    exact ⟨covered, rfl, acceptable.base, by omega, by omega⟩

theorem validateTensors_iff {descs : List MgMpsgraphTensorDesc} {sources : List TensorSource} :
    validateTensors descs = .ok sources ↔ List.Forall₂ (fun desc source => ReadFrom desc source ∧
      TensorAcceptable desc source.buffer source.shape) descs sources := by
  induction descs generalizing sources with
  | nil =>
      simp only [validateTensors, List.forall₂_nil_left_iff, Except.ok.injEq, eq_comm]
  | cons desc rest ih =>
      simp only [validateTensors, except_bind_ok, except_pure_ok,
        mgValidateMpsgraphTensorDesc_iff, ih, List.forall₂_cons_left_iff]
      constructor
      · rintro ⟨source, checked, others, tail, rfl⟩
        exact ⟨source, others, checked, tail, rfl⟩
      · rintro ⟨source, others, checked, tail, rfl⟩
        exact ⟨source, checked, others, tail, rfl⟩

end Validation

/-! ### Copies -/

section Copies

variable {source : TensorSource} {sources : List TensorSource}

def TensorSource.cloned (source : TensorSource) : MgMpsgraphTensor where
  buffer := source.buffer
  byteOffset := source.byteOffset
  byteCount := source.effectiveByteCount
    ((mgShapeByteCount source.shape (mgTensorDataTypeSize source.dataType)).getD 0)
  dataType := source.dataType
  layout := source.layout
  shape := source.shape

/-- The second check of the shape, made by the copy, passes. -/
def TensorSource.Shaped (source : TensorSource) : Prop :=
  ∃ required, mgShapeByteCount source.shape (mgTensorDataTypeSize source.dataType) = some required

theorem TensorAcceptable.shaped {desc : MgMpsgraphTensorDesc} (read : ReadFrom desc source)
    (acceptable : TensorAcceptable desc source.buffer source.shape) : source.Shaped := by
  refine ⟨UInt64.ofNat (float32Bytes source.shape), tensorByteCount_iff.mpr ?_⟩
  exact ⟨read.dataType.trans acceptable.dataType, acceptable.rank, acceptable.dimensions,
    UInt64.toNat_ofNat_of_lt' acceptable.representable⟩

theorem TensorAcceptable.stored {desc : MgMpsgraphTensorDesc} (read : ReadFrom desc source)
    (acceptable : TensorAcceptable desc source.buffer source.shape) :
    TensorStored desc source.cloned := by
  obtain ⟨required, counted⟩ := acceptable.shaped read
  have exact := (tensorByteCount_iff.mp counted).2.2.2
  refine ⟨read.buffer, read.shape, read.byteOffset, ?_, read.dataType, read.layout⟩
  simp only [TensorSource.cloned, counted, Option.getD_some]
  exact read.effectiveByteCount exact

theorem mgMpsgraphTensorClone_yields (shaped : source.Shaped) :
    Yields (mgMpsgraphTensorClone source) (· = source.cloned) := by
  obtain ⟨required, counted⟩ := shaped
  refine Triple.orFail (fun found same => ?_) fun missing => by simp [counted] at missing
  cases counted.symm.trans same
  apply (attemptOr_yields _).bind
  intro _ _
  apply (retainObject_yields _).bind
  intro _ _
  apply Yields.pure
  simp only [TensorSource.cloned, counted, Option.getD_some]

theorem mgMpsgraphTensorArrayClone_yields (shaped : ∀ source ∈ sources, source.Shaped) :
    Yields (mgMpsgraphTensorArrayClone sources) (· = sources.map TensorSource.cloned) := by
  unfold mgMpsgraphTensorArrayClone
  split
  · exact .pure rfl
  · rename_i first rest
    apply (attemptOr_yields _).bind
    intro _ _
    refine (Triple.foldEach (fun done tensors env => tensors = done.map TensorSource.cloned ∧
      env.Granting) ?_).weaken (fun _ granting => ⟨rfl, granting⟩) (fun _ _ ended => ended)
      fun _ _ stopped => stopped
    rintro done source tensors member env ⟨rfl, granting⟩
    refine Yields.bind (mgMpsgraphTensorClone_yields (shaped source member)).catching
      (fun cloned same => Yields.pure ?_) env granting
    rw [same, List.map_append, List.map_singleton]

/-- A tensor that was validated is not refused for its shape when it is copied. -/
theorem mgMpsgraphTensorClone_shape {desc : MgMpsgraphTensorDesc}
    (checked : mgValidateMpsgraphTensorDesc desc = .ok source) (env : Env) :
    (mgMpsgraphTensorClone source env).1 ≠
      .error (createFault "MPSGraph tensor shape or dtype is invalid") := by
  obtain ⟨read, acceptable⟩ := mgValidateMpsgraphTensorDesc_iff.mp checked
  obtain ⟨required, counted⟩ := acceptable.shaped read
  have fails : FailsOnly (· = mgSetOom .create) (mgMpsgraphTensorClone source) :=
    .bind (.orFail fun missing => by simp [counted] at missing) fun _ _ _ _ =>
    .bind (attemptOr_fails rfl) fun _ _ _ _ =>
    .bind (.update _) fun _ _ _ _ => .pure _
  intro refused
  rcases ran : mgMpsgraphTensorClone source env with ⟨result, reached⟩
  rw [ran] at refused
  simp only at refused
  subst refused
  have memory := fails env _ reached ran
  simp [createFault, mgSetError, mgSetOom] at memory

end Copies

/-! ### Nodes -/

section Nodes

variable {desc : MgMpsgraphDesc} {packagePath : String} {feeds targets : List MgMpsgraphTensorDesc}
  {graph : MgGraph} {env : Env}

theorem mgGraphAddMPSGraphNode_accepted {source : MpsgraphSource}
    {feedSources targetSources : List TensorSource} (pointers : mpsgraphPointers desc = some source)
    (feedsValid : validateTensors source.feeds = .ok feedSources)
    (targetsValid : validateTensors source.targets = .ok targetSources)
    (shaped : ∀ tensor ∈ feedSources ++ targetSources, tensor.Shaped) :
    Accepted (mgGraphAddMPSGraphNode (some desc)) (.mpsgraph ⟨source.packagePath,
      feedSources.map TensorSource.cloned, targetSources.map TensorSource.cloned⟩) := by
  intro graph room
  refine Triple.orFail (fun given same => ?_) fun missing => nomatch missing
  cases same
  refine Triple.orFail (fun read same => ?_) fun missing => by simp [pointers] at missing
  cases pointers.symm.trans same
  refine Triple.ofExcept (fun found same => ?_) fun _ refused => by simp [feedsValid] at refused
  cases feedsValid.symm.trans same
  refine Triple.ofExcept (fun found same => ?_) fun _ refused => by simp [targetsValid] at refused
  cases targetsValid.symm.trans same
  apply Triple.bind (mgGraphAllocNode_ready room)
  intro _
  apply ready_onEnv (attemptOr_yields _)
  intro _ _
  apply ready_onEnv (mgMpsgraphTensorArrayClone_yields fun tensor member =>
    shaped tensor (List.mem_append_left _ member))
  rintro _ rfl
  apply ready_onEnv (mgMpsgraphTensorArrayClone_yields fun tensor member =>
    shaped tensor (List.mem_append_right _ member)).catching
  rintro _ rfl
  exact mgGraphCommitNode_ready _

/-- The tensors of a list are all acceptable exactly if the list can be read and checked. -/
theorem validateTensors_some_iff {descs : List MgMpsgraphTensorDesc} :
    (∃ sources, validateTensors descs = .ok sources) ↔
      ∀ tensor ∈ descs, ∃ buffer shape, TensorAcceptable tensor buffer shape := by
  simp only [validateTensors_iff]
  induction descs with
  | nil => simp
  | cons desc rest ih =>
      rw [List.forall_mem_cons, ← ih]
      constructor
      · rintro ⟨_, checked⟩
        obtain ⟨source, others, ⟨_, acceptable⟩, tail, rfl⟩ :=
          List.forall₂_cons_left_iff.mp checked
        exact ⟨⟨source.buffer, source.shape, acceptable⟩, others, tail⟩
      · rintro ⟨⟨buffer, shape, acceptable⟩, others, tail⟩
        refine ⟨⟨buffer, desc.byteOffset, desc.byteCount, desc.dataType, desc.layout, shape⟩ ::
          others, .cons ⟨?_, acceptable⟩ tail⟩
        exact ⟨acceptable.bufferGiven, acceptable.shapeGiven, rfl, rfl, rfl, rfl⟩

theorem cloned_stored {descs : List MgMpsgraphTensorDesc} {sources : List TensorSource}
    (checked : validateTensors descs = .ok sources) :
    List.Forall₂ TensorStored descs (sources.map TensorSource.cloned) := by
  rw [List.forall₂_map_right_iff]
  exact (validateTensors_iff.mp checked).imp fun _ _ both => both.2.stored both.1

theorem sources_shaped {descs : List MgMpsgraphTensorDesc} {sources : List TensorSource}
    (checked : validateTensors descs = .ok sources) : ∀ tensor ∈ sources, tensor.Shaped := by
  intro tensor member
  obtain ⟨desc, _, read, acceptable⟩ := mem_of_forall₂' (validateTensors_iff.mp checked) member
  exact acceptable.shaped read

/-- When nothing is refused, a descriptor with a path and tensors is accepted exactly if it is
large enough and its tensors are acceptable. The copies of the tensors have their byte counts
filled in, and are never refused for their shapes. -/
theorem mgGraphAddMPSGraphNode_exact (pathGiven : desc.packagePath = some packagePath)
    (feedsGiven : desc.feeds = some feeds) (targetsGiven : desc.targets = some targets)
    (feedsFilled : feeds ≠ []) (targetsFilled : targets ≠ []) (granting : env.Granting)
    (room : (graph.nodes.length + 1) * sizeofMgNode ≤ 2 ^ 64) :
    ((∃ pointer reached, mgGraphAddMPSGraphNode (some desc) ⟨graph, env⟩ = (.ok pointer, reached)) ↔
      sizeofMgMpsgraphDesc ≤ desc.size ∧
        ∀ tensor ∈ feeds ++ targets, ∃ buffer shape, TensorAcceptable tensor buffer shape) ∧
    (∀ pointer reached,
      mgGraphAddMPSGraphNode (some desc) ⟨graph, env⟩ = (.ok pointer, reached) →
      ∃ storedFeeds storedTargets, List.Forall₂ TensorStored feeds storedFeeds ∧
        List.Forall₂ TensorStored targets storedTargets ∧
        reached.object.nodes = graph.nodes ++
          [newNode graph (.mpsgraph ⟨packagePath, storedFeeds, storedTargets⟩)]) ∧
    ∀ tensor source, mgValidateMpsgraphTensorDesc tensor = .ok source → ∀ env,
      (mgMpsgraphTensorClone source env).1 ≠
        .error (createFault "MPSGraph tensor shape or dtype is invalid") := by
  have pointers : sizeofMgMpsgraphDesc ≤ desc.size →
      mpsgraphPointers desc = some ⟨packagePath, feeds, targets⟩ := by
    intro sized
    simp only [mpsgraphPointers, pathGiven, feedsGiven, targetsGiven, feedsFilled, targetsFilled,
      UInt64.not_lt.mpr sized, or_self, ↓reduceIte]
  have checked : ∀ pointer reached,
      mgGraphAddMPSGraphNode (some desc) ⟨graph, env⟩ = (.ok pointer, reached) →
      sizeofMgMpsgraphDesc ≤ desc.size ∧ ∃ feedSources targetSources,
        validateTensors feeds = .ok feedSources ∧ validateTensors targets = .ok targetSources := by
    intro pointer reached success
    simp only [mgGraphAddMPSGraphNode, bind_ok, orFail_ok, ofExcept_ok] at success
    obtain ⟨_, _, ⟨same, rfl⟩, source, _, ⟨read, rfl⟩, feedSources, _, ⟨feedsValid, rfl⟩,
      targetSources, _, ⟨targetsValid, rfl⟩, _⟩ := success
    cases same
    simp only [mpsgraphPointers, pathGiven, feedsGiven, targetsGiven, feedsFilled, targetsFilled,
      or_false] at read
    split at read
    · cases read
    · rename_i sized
      cases read
      exact ⟨UInt64.not_lt.mp sized, feedSources, targetSources, feedsValid, targetsValid⟩
  have adds : ∀ feedSources targetSources, sizeofMgMpsgraphDesc ≤ desc.size →
      validateTensors feeds = .ok feedSources → validateTensors targets = .ok targetSources →
      ∃ pointer reached, mgGraphAddMPSGraphNode (some desc) ⟨graph, env⟩ = (.ok pointer, reached) ∧
        NodeAdded graph (.mpsgraph ⟨packagePath, feedSources.map TensorSource.cloned,
          targetSources.map TensorSource.cloned⟩) reached.object := by
    intro feedSources targetSources sized feedsValid targetsValid
    refine (mgGraphAddMPSGraphNode_accepted (pointers sized) feedsValid targetsValid ?_).added
      granting room
    intro tensor member
    rcases List.mem_append.mp member with feed | target
    · exact sources_shaped feedsValid tensor feed
    · exact sources_shaped targetsValid tensor target
  refine ⟨⟨?_, ?_⟩, ?_, fun _ _ checked => mgMpsgraphTensorClone_shape checked⟩
  · rintro ⟨pointer, reached, success⟩
    obtain ⟨sized, feedSources, targetSources, feedsValid, targetsValid⟩ :=
      checked pointer reached success
    exact ⟨sized, List.forall_mem_append.mpr ⟨validateTensors_some_iff.mp ⟨_, feedsValid⟩,
      validateTensors_some_iff.mp ⟨_, targetsValid⟩⟩⟩
  · rintro ⟨sized, acceptable⟩
    obtain ⟨feedsAcceptable, targetsAcceptable⟩ := List.forall_mem_append.mp acceptable
    obtain ⟨feedSources, feedsValid⟩ := validateTensors_some_iff.mpr feedsAcceptable
    obtain ⟨targetSources, targetsValid⟩ := validateTensors_some_iff.mpr targetsAcceptable
    obtain ⟨pointer, reached, success, _⟩ := adds _ _ sized feedsValid targetsValid
    exact ⟨pointer, reached, success⟩
  · intro pointer reached success
    obtain ⟨sized, feedSources, targetSources, feedsValid, targetsValid⟩ :=
      checked pointer reached success
    obtain ⟨_, _, success', added⟩ := adds _ _ sized feedsValid targetsValid
    cases success.symm.trans success'
    exact ⟨_, _, cloned_stored feedsValid, cloned_stored targetsValid, added.nodes⟩

end Nodes

/-! Descriptors over a tensor of four numbers that leaves its byte count to the default. -/

def squareTensor : MgMpsgraphTensorDesc :=
  ⟨56, some sharedBuffer, 0, 0, .float32, .contiguous, some [2, 2]⟩

def squareDesc (size : UInt64) : MgMpsgraphDesc :=
  ⟨size, some "package", some [squareTensor], some [squareTensor]⟩

theorem square_acceptable : TensorAcceptable squareTensor sharedBuffer [2, 2] where
  size := by decide
  bufferGiven := rfl
  shapeGiven := rfl
  dataType := rfl
  layout := rfl
  rank := by decide
  dimensions := by simp
  offset := rfl
  base := rfl
  representable := by simp [float32Bytes]
  covered := by decide
  inside := by decide

theorem mgGraphAddMPSGraphNode_of_square : ∃ pointer reached,
    mgGraphAddMPSGraphNode (some (squareDesc 48)) ⟨⟨0, [], 0, [], 0, none⟩, grantAll.world.env⟩ =
      (.ok pointer, reached) := by
  obtain ⟨accepts, _⟩ := @mgGraphAddMPSGraphNode_exact (squareDesc 48) "package" [squareTensor]
    [squareTensor] ⟨0, [], 0, [], 0, none⟩ grantAll.world.env rfl rfl rfl (by simp) (by simp)
    (fun _ => rfl) (by decide)
  refine accepts.mpr ⟨by decide, fun tensor member => ⟨sharedBuffer, [2, 2], ?_⟩⟩
  simp only [List.singleton_append, List.mem_cons, List.not_mem_nil, or_false, or_self] at member
  exact member ▸ square_acceptable

/-- A descriptor that declares no size is refused, whatever its tensors are. -/
theorem mgGraphAddMPSGraphNode_refuses_size :
    ¬ ∀ (desc : MgMpsgraphDesc) (packagePath : String) (feeds targets : List MgMpsgraphTensorDesc)
      (graph : MgGraph) (env : Env), desc.packagePath = some packagePath →
      desc.feeds = some feeds → desc.targets = some targets → feeds ≠ [] → targets ≠ [] →
      env.Granting → (graph.nodes.length + 1) * sizeofMgNode ≤ 2 ^ 64 →
      ((∃ pointer reached,
          mgGraphAddMPSGraphNode (some desc) ⟨graph, env⟩ = (.ok pointer, reached)) ↔
        ∀ tensor ∈ feeds ++ targets, ∃ buffer shape, TensorAcceptable tensor buffer shape) := by
  intro accepts
  obtain ⟨pointer, reached, success⟩ := (accepts (squareDesc 0) "package" [squareTensor]
    [squareTensor] ⟨0, [], 0, [], 0, none⟩ grantAll.world.env rfl rfl rfl (by simp) (by simp)
    (fun _ => rfl) (by decide)).mpr fun tensor member => ⟨sharedBuffer, [2, 2], by
      simp only [List.singleton_append, List.mem_cons, List.not_mem_nil, or_false, or_self]
        at member
      exact member ▸ square_acceptable⟩
  have refused : (mgGraphAddMPSGraphNode (some (squareDesc 0))
      ⟨⟨0, [], 0, [], 0, none⟩, grantAll.world.env⟩).1.toOption = none := by
    decide +kernel
  rw [success] at refused
  cases refused

end MetalGraph
