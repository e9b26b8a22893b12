import Xllm.KvCacheTransfer.XTensorOffsets

/-!
# The run of a push in XTensor mode

A block is copied to the offset that stands at its index (`gatherOffsets_spec`). What is bound for
a destination was gathered in full, and so were all layers before it; a destination that is not
reported has been bound on every layer (`pushXtensorLayers_inv`).
-/

namespace Xllm.Framework

open List

/-! ## Gathering -/

section

variable {Region : Type} {env : XTensorEnv Region} {layer : Nat}

theorem gatherOffsets_spec {layerOffsets : Option XTensorLayerOffsets} {blocks : List Nat} {i : Nat}
    {copies : List BlockCopy} (h : gatherOffsets env layer layerOffsets blocks i = some copies) :
    copies.map (·.srcK) = blocks.map (fun block => (env.getGlobalOffsetsForBlock layer block).1) ∧
    copies.map (·.srcV) = blocks.map (fun block => (env.getGlobalOffsetsForBlock layer block).2) ∧
    (blocks ≠ [] → ∃ offsets, layerOffsets = some offsets ∧
      i + blocks.length ≤ offsets.kOffsets.length ∧
      copies.map (·.dstK) = (offsets.kOffsets.drop i).take blocks.length ∧
      copies.map (·.dstV) = (offsets.vOffsets.drop i).take blocks.length) := by
  induction blocks generalizing i copies with
  | nil =>
    cases h
    exact ⟨rfl, rfl, fun hne => absurd rfl hne⟩
  | cons block blocks ih =>
    unfold gatherOffsets at h
    dsimp only at h
    split at h
    · cases h
    split at h
    · cases h
    next offsets =>
    split at h
    · next dstK dstV hk hv =>
      obtain ⟨rest, hrest, heq⟩ := Option.map_eq_some_iff.mp h
      cases heq
      obtain ⟨hsrcK, hsrcV, hdst⟩ := ih hrest
      obtain ⟨hki, hk⟩ := List.getElem?_eq_some_iff.mp hk
      obtain ⟨hvi, hv⟩ := List.getElem?_eq_some_iff.mp hv
      refine ⟨congrArg _ hsrcK, congrArg _ hsrcV, fun _ => ⟨offsets, rfl, ?_⟩⟩
      rw [drop_eq_getElem_cons hki, drop_eq_getElem_cons hvi, length_cons,
        take_succ_cons, take_succ_cons, map_cons, map_cons, hk, hv]
      cases blocks with
      | nil =>
        cases hrest
        exact ⟨hki, rfl, rfl⟩
      | cons next blocks =>
        obtain ⟨offsets', hsame, hlength, hdstK, hdstV⟩ := hdst (cons_ne_nil _ _)
        cases hsame
        exact ⟨by omega, congrArg _ hdstK, congrArg _ hdstV⟩
    · cases h

theorem gatherOffsets_isSome {offsets : XTensorLayerOffsets} {blocks : List Nat} {i : Nat}
    (hsrc : ∀ block, (env.getGlobalOffsetsForBlock layer block).1 ≠ invalidOffset ∧
      (env.getGlobalOffsetsForBlock layer block).2 ≠ invalidOffset)
    (hk : i + blocks.length ≤ offsets.kOffsets.length)
    (hv : i + blocks.length ≤ offsets.vOffsets.length) :
    ∃ copies, gatherOffsets env layer (some offsets) blocks i = some copies := by
  induction blocks generalizing i with
  | nil => exact ⟨[], rfl⟩
  | cons block blocks ih =>
    rw [length_cons] at hk hv
    have hki : i < offsets.kOffsets.length := by omega
    have hvi : i < offsets.vOffsets.length := by omega
    obtain ⟨rest, hrest⟩ := @ih (i + 1) (by omega) (by omega)
    have hvalid := hsrc block
    unfold gatherOffsets
    dsimp only
    rw [if_neg (by rw [not_or]; exact hvalid), List.getElem?_eq_getElem hki,
      List.getElem?_eq_getElem hvi, hrest]
    exact ⟨_, rfl⟩

/-! ## The run -/

variable (env) (merged : MergedKvInfos)

/-- The destination has no blocks. -/
def Skipped (key : String) : Prop :=
  ∃ mapping,
    ((merged.lookup key).getD {}).mappings.find? (·.groupId = kvCacheGroupId) = some mapping ∧
    mapping.localIds = [] ∧ mapping.remoteIds = []

/-- The mappings that a destination gets in a layer when all offsets are found. -/
def LayerGathered (layer : Nat) (key : String) (mappings : List ExplicitResourceMapping) : Prop :=
  ∃ mapping copies,
    ((merged.lookup key).getD {}).mappings.find? (·.groupId = kvCacheGroupId) = some mapping ∧
    mapping.localIds ≠ [] ∧ mapping.localIds.length = mapping.remoteIds.length ∧
    gatherOffsets env layer ((merged.lookup key).getD {}).dstXtensorLayerOffsets[layer]?
      mapping.localIds 0 = some copies ∧
    mappings = explicitMappings mapping copies

/-- Nothing is to be done for the destination in the layer, or it was bound. -/
def LayerSettled (s : XTensorPushState) (layer : Nat) (key : String) : Prop :=
  Skipped merged key ∨
    ∃ mappings, LayerGathered env merged layer key mappings ∧ (layer, key, mappings) ∈ s.bound

/-- Failures and what was bound are kept. -/
structure Grows (s s' : XTensorPushState) : Prop where
  failedKeys : ∀ key, key ∈ s.failedKeys → key ∈ s'.failedKeys
  bound : ∀ b, b ∈ s.bound → b ∈ s'.bound

variable {env} {merged} {s s' : XTensorPushState} {key : String}

theorem Grows.refl (s : XTensorPushState) : Grows s s := ⟨fun _ h => h, fun _ h => h⟩

theorem Grows.trans {s'' : XTensorPushState} (h : Grows s s') (h' : Grows s' s'') : Grows s s'' :=
  ⟨fun key hkey => h'.failedKeys key (h.failedKeys key hkey), fun b hb => h'.bound b (h.bound b hb)⟩

theorem Grows.fail (s : XTensorPushState) (key : String) : Grows s (s.fail key) :=
  ⟨fun _ h => mem_append_left _ h, fun _ h => h⟩

theorem LayerSettled.grow (h : LayerSettled env merged s layer key) (hgrows : Grows s s') :
    LayerSettled env merged s' layer key := by
  obtain hskipped | ⟨mappings, hgathered, hmem⟩ := h
  · exact Or.inl hskipped
  · exact Or.inr ⟨mappings, hgathered, hgrows.bound _ hmem⟩

/-- One destination of a layer. -/
structure KeyStep (env : XTensorEnv Region) (merged : MergedKvInfos) (layer : Nat) (key : String)
    (s s' : XTensorPushState) : Prop where
  grows : Grows s s'
  others : ∀ other, other ∈ s'.failedKeys → other ∈ s.failedKeys ∨ other = key
  bound : ∀ b, b ∈ s'.bound → b ∈ s.bound ∨
    key ∉ s.failedKeys ∧
      ∃ mappings, LayerGathered env merged layer key mappings ∧ b = (layer, key, mappings)
  settled : key ∈ s'.failedKeys ∨ LayerSettled env merged s' layer key

theorem KeyStep.of_fail (s : XTensorPushState) :
    KeyStep env merged layer key s (s.fail key) where
  grows := Grows.fail s key
  others other hother := by
    obtain hold | hnew := mem_append.mp hother
    · exact Or.inl hold
    · exact Or.inr (mem_singleton.mp hnew)
  bound _ hb := Or.inl hb
  settled := Or.inl (mem_append_right _ (mem_singleton.mpr rfl))

theorem KeyStep.of_bound {mappings : List ExplicitResourceMapping}
    (hfresh : key ∉ s.failedKeys) (hgathered : LayerGathered env merged layer key mappings) :
    KeyStep env merged layer key s { s with bound := s.bound ++ [(layer, key, mappings)] } where
  grows := ⟨fun _ h => h, fun _ h => mem_append_left _ h⟩
  others _ hother := Or.inl hother
  bound b hb := by
    obtain hold | hnew := mem_append.mp hb
    · exact Or.inl hold
    · exact Or.inr ⟨hfresh, mappings, hgathered, mem_singleton.mp hnew⟩
  settled := Or.inr (Or.inr ⟨mappings, hgathered,
    mem_append_right _ (mem_singleton.mpr rfl)⟩)

theorem pushXtensorKey_spec (layer : Nat) (key : String) (s : XTensorPushState) :
    KeyStep env merged layer key s (pushXtensorKey env merged layer s key) := by
  unfold pushXtensorKey
  by_cases hfailed : key ∈ s.failedKeys
  · rw [if_pos hfailed]
    exact ⟨.refl s, fun _ h => Or.inl h, fun _ h => Or.inl h, Or.inl hfailed⟩
  rw [if_neg hfailed]
  dsimp only
  split
  · exact .of_fail s
  next mapping hfind =>
  split
  · exact .of_fail s
  next hsizes =>
  have hsizes : mapping.localIds.length = mapping.remoteIds.length := not_not.mp hsizes
  split
  · next hempty =>
    refine ⟨.refl s, fun _ h => Or.inl h, fun _ h => Or.inl h, Or.inr (Or.inl ?_)⟩
    rw [hempty, length_nil] at hsizes
    exact ⟨mapping, hfind, hempty, eq_nil_of_length_eq_zero hsizes.symm⟩
  next hblocks =>
  split
  · exact .of_fail s
  next copies hcopies =>
  have hgathered : LayerGathered env merged layer key (explicitMappings mapping copies) :=
    ⟨mapping, copies, hfind, hblocks, hsizes, hcopies, rfl⟩
  split
  · exact .of_fail s
  split
  · exact .of_bound hfailed hgathered
  · have hstep := @KeyStep.of_bound _ env layer merged s key _ hfailed hgathered
    refine ⟨hstep.grows.trans (.fail _ key), fun other hother => ?_, hstep.bound,
      Or.inl (mem_append_right _ (mem_singleton.mpr rfl))⟩
    obtain hold | hnew := mem_append.mp hother
    · exact Or.inl hold
    · exact Or.inr (mem_singleton.mp hnew)

/-- What holds when some layers are done. -/
structure PushInv (env : XTensorEnv Region) (merged : MergedKvInfos) (keys : List String)
    (numLayers : Nat) (s : XTensorPushState) : Prop where
  settled : ∀ key ∈ keys, key ∈ s.failedKeys ∨ ∀ l < numLayers, LayerSettled env merged s l key
  sound : ∀ layer key mappings, (layer, key, mappings) ∈ s.bound →
    LayerGathered env merged layer key mappings ∧
    ∀ l < layer, Skipped merged key ∨ ∃ mappings, LayerGathered env merged l key mappings

theorem PushInv.pushKey {keys : List String} (h : PushInv env merged keys layer s)
    (hkey : key ∈ keys) :
    PushInv env merged keys layer (pushXtensorKey env merged layer s key) := by
  have hstep := @pushXtensorKey_spec _ env merged layer key s
  refine ⟨fun other hother => ?_, fun l other mappings hbound => ?_⟩
  · obtain hfailed | hsettled := h.settled other hother
    · exact Or.inl (hstep.grows.failedKeys other hfailed)
    · exact Or.inr fun l hl => (hsettled l hl).grow hstep.grows
  · obtain hold | ⟨hfresh, mappings', hgathered, heq⟩ := hstep.bound _ hbound
    · exact h.sound l other mappings hold
    · cases heq
      refine ⟨hgathered, fun l hl => ?_⟩
      obtain hfailed | hsettled := h.settled key hkey
      · exact absurd hfailed hfresh
      · obtain hskipped | ⟨mappings, hgathered, _⟩ := hsettled l hl
        · exact Or.inl hskipped
        · exact Or.inr ⟨mappings, hgathered⟩

/-- Some destinations of a layer: all that is bound is bound in it. -/
structure GrowsAt (layer : Nat) (s s' : XTensorPushState) : Prop extends Grows s s' where
  newBound : ∀ b, b ∈ s'.bound → b ∈ s.bound ∨ b.1 = layer

theorem GrowsAt.cons (h : KeyStep env merged layer key s s') {s'' : XTensorPushState}
    (h' : GrowsAt layer s' s'') : GrowsAt layer s s'' := by
  refine ⟨h.grows.trans h'.toGrows, fun b hb => ?_⟩
  cases h'.newBound b hb with
  | inr hlayer => exact Or.inr hlayer
  | inl hb =>
    obtain hold | ⟨_, mappings, _, heq⟩ := h.bound b hb
    · exact Or.inl hold
    · rw [heq]
      exact Or.inr rfl

theorem PushInv.pushKeys {keys todo : List String} (h : PushInv env merged keys layer s)
    (htodo : ∀ key ∈ todo, key ∈ keys) :
    PushInv env merged keys layer (todo.foldl (pushXtensorKey env merged layer) s) ∧
    GrowsAt layer s (todo.foldl (pushXtensorKey env merged layer) s) ∧
    ∀ key ∈ todo, key ∈ (todo.foldl (pushXtensorKey env merged layer) s).failedKeys ∨
      LayerSettled env merged (todo.foldl (pushXtensorKey env merged layer) s) layer key := by
  induction todo generalizing s with
  | nil => exact ⟨h, ⟨.refl s, fun _ hb => Or.inl hb⟩, nofun⟩
  | cons key todo ih =>
    have hstep := @pushXtensorKey_spec _ env merged layer key s
    obtain ⟨hinv, hgrows, hsettled⟩ := ih (h.pushKey (htodo key mem_cons_self))
      fun k hk => htodo k (mem_cons_of_mem _ hk)
    refine ⟨hinv, .cons hstep hgrows, fun other hother => ?_⟩
    cases mem_cons.mp hother with
    | inl heq =>
      rw [heq]
      cases hstep.settled with
      | inl hfailed => exact Or.inl (hgrows.failedKeys key hfailed)
      | inr hsettled => exact Or.inr (hsettled.grow hgrows.toGrows)
    | inr hother => exact hsettled other hother

theorem PushInv.pushLayer {keys : List String} (h : PushInv env merged keys layer s) :
    PushInv env merged keys (layer + 1) (pushXtensorLayer env merged keys s layer) ∧
    GrowsAt layer s (pushXtensorLayer env merged keys s layer) := by
  unfold pushXtensorLayer
  split
  · exact ⟨⟨fun key hkey => Or.inl (mem_append_right _ hkey), h.sound⟩,
      ⟨fun _ hkey => mem_append_left _ hkey, fun _ hb => hb⟩, fun _ hb => Or.inl hb⟩
  · obtain ⟨hinv, hgrows, hsettled⟩ := h.pushKeys fun _ hkey => hkey
    refine ⟨⟨fun key hkey => ?_, hinv.sound⟩, hgrows⟩
    obtain hfailed | hnow := hsettled key hkey
    · exact Or.inl hfailed
    · obtain hfailed | hbefore := hinv.settled key hkey
      · exact Or.inl hfailed
      · refine Or.inr fun l hl => ?_
        cases Nat.lt_succ_iff_lt_or_eq.mp hl with
        | inl hl => exact hbefore l hl
        | inr heq => exact heq ▸ hnow

theorem pushXtensorLayers_succ (env : XTensorEnv Region) (merged : MergedKvInfos)
    (keys : List String) (numLayers : Nat) :
    pushXtensorLayers env merged keys (numLayers + 1) =
      pushXtensorLayer env merged keys (pushXtensorLayers env merged keys numLayers) numLayers := by
  unfold pushXtensorLayers
  rw [range_succ, foldl_append]
  rfl

theorem pushXtensorLayers_inv (env : XTensorEnv Region) (merged : MergedKvInfos)
    (keys : List String) (numLayers : Nat) :
    PushInv env merged keys numLayers (pushXtensorLayers env merged keys numLayers) := by
  induction numLayers with
  | zero => exact ⟨fun _ _ => Or.inr fun l hl => absurd hl (Nat.not_lt_zero l),
      nofun⟩
  | succ numLayers ih =>
    rw [pushXtensorLayers_succ]
    exact ih.pushLayer.1

theorem pushXtensorLayers_bound_lt (env : XTensorEnv Region) (merged : MergedKvInfos)
    (keys : List String) (numLayers : Nat) :
    ∀ b ∈ (pushXtensorLayers env merged keys numLayers).bound, b.1 < numLayers := by
  induction numLayers with
  | zero => exact nofun
  | succ numLayers ih =>
    intro b hb
    rw [pushXtensorLayers_succ] at hb
    have hlast := (pushXtensorLayers_inv env merged keys numLayers).pushLayer.2
    cases hlast.newBound b hb with
    | inl hold => exact Nat.lt_succ_of_lt (ih b hold)
    | inr heq => exact heq ▸ Nat.lt_succ_self _

theorem pushXtensorLayers_grows (env : XTensorEnv Region) (merged : MergedKvInfos)
    (keys : List String) {numLayers numLayers' : Nat} (h : numLayers ≤ numLayers') :
    Grows (pushXtensorLayers env merged keys numLayers)
      (pushXtensorLayers env merged keys numLayers') := by
  induction numLayers' with
  | zero =>
    rw [Nat.le_zero.mp h]
    exact .refl _
  | succ numLayers' ih =>
    cases Nat.lt_succ_iff_lt_or_eq.mp (Nat.lt_succ_of_le h) with
    | inr heq =>
      rw [heq]
      exact .refl _
    | inl hlt =>
      have hlast := (pushXtensorLayers_inv env merged keys numLayers').pushLayer.2
      rw [pushXtensorLayers_succ]
      exact (ih (Nat.lt_succ_iff.mp hlt)).trans hlast.toGrows

end

end Xllm.Framework
