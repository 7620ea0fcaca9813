import Verl.DeltaSync.Send

/-!
# Whole runs of the delta sync

After every sync the receiver has the trainer's parameters, bit for bit, it has
yielded what was published, and nothing is left on the wire (`syncs_inStep`).

The invariant that carries a run from one sync to the next is `Synced`: the
trainer's snapshots are what the model has.  A sync publishes what differs from
the snapshots, so what it leaves out the model has already.
-/

namespace Verl.DeltaSync

open Batching (writeStream)
open Overlay (overlay)

variable {T : Torch} {ps : List (Param T)} {w : WeightState ps}

/-! ## The model -/

/-- The model has every parameter, in its shape and dtype. -/
def Hosts (ps : List (Param T)) (model : Model T) : Prop :=
  ∀ p ∈ ps, ∃ xs : List (T.Val p.dtype),
    model p.name = some ⟨p.spec.fullShape, ⟨p.dtype, xs⟩⟩ ∧ xs.length = prodshape p.spec.fullShape

/-- The model's parameters are the trainer's, bit for bit. -/
def Equals (w : WeightState ps) (model : Model T) : Prop :=
  ∀ p ∈ ps, model p.name = some ⟨p.spec.fullShape, ⟨p.dtype, w.value p⟩⟩

theorem Hosts.exists_stores {model : Model T} (h : Hosts ps model) :
    ∃ content, Stores ps model content := by
  classical
  refine ⟨fun x => if hp : x.1 ∈ ps then (h x.1 hp).choose[x.2]? else none, fun p hp => ?_⟩
  obtain ⟨hmodel, hlength⟩ := (h p hp).choose_spec
  refine ⟨(h p hp).choose, hmodel, hlength, fun i => ?_⟩
  simp only [dif_pos hp]

theorem Equals.stores {model : Model T} (h : Equals w model) : Stores ps model w.content :=
  fun p hp => ⟨w.value p, h p hp, w.length_value p hp, fun _ => rfl⟩

theorem Equals.of_stores {model : Model T} {content : Content T} (h : Stores ps model content)
    (hcontent : ∀ p ∈ ps, ∀ i, content (p, i) = w.content (p, i)) : Equals w model := by
  intro p hp
  obtain ⟨xs, hmodel, -, hxs⟩ := h p hp
  obtain rfl : xs = w.value p := List.ext_getElem? fun i => (hxs i).trans (hcontent p hp i)
  exact hmodel

/-- Overwriting every cell that differs reaches the trainer's values. -/
theorem Equals.of_overlay {E : Type} {cover : E → Set (Cell T)} {es : List E} {model : Model T}
    {content : Content T}
    (h : Stores ps model (es.foldl (fun c e => overlay w.content (cover e) c) content))
    (hcover : ∀ p ∈ ps, ∀ i, content (p, i) ≠ w.content (p, i) → ∃ e ∈ es, (p, i) ∈ cover e) :
    Equals w model := by
  refine Equals.of_stores h fun p hp i => ?_
  rw [Overlay.foldl_overlay, Overlay.overlay_eq_target_iff]
  intro hne
  obtain ⟨e, he, hmem⟩ := hcover p hp i hne
  exact Set.mem_biUnion he hmem

/-! ## One sync -/

theorem forall_reads {F E : Type} {framing : Framing T F} {cover : E → Set (Cell T)}
    {buckets : List (List E)} {flushes : List F}
    (h : List.Forall₂ (framing.Moves w cover) buckets flushes) :
    ∀ flush ∈ flushes, framing.Reads flush := by
  induction h with
  | nil => exact fun flush hflush => (List.not_mem_nil hflush).elim
  | cons hhead _ ih =>
      intro flush hflush
      rcases List.mem_cons.mp hflush with rfl | hflush
      · exact hhead.reads
      · exact ih flush hflush

/-- The flushes of a stream, applied in order. -/
theorem foldlM_applyDelta {F E : Type} {framing : Framing T F} {cover : E → Set (Cell T)}
    {buckets : List (List E)} {flushes : List F}
    (h : List.Forall₂ (framing.Moves w cover) buckets flushes) {model : Model T}
    {content : Content T} (hmodel : Stores ps model content) :
    ∃ model', (framing.flagged flushes).foldlM (fun model x => applyDelta model x.1) model =
        .ok model' ∧
      Stores ps model' (buckets.flatten.foldl (fun c e => overlay w.content (cover e) c)
        content) := by
  rw [← List.foldlM_map, Framing.map_fst_flagged, List.foldlM_map]
  induction h generalizing model content with
  | nil => exact ⟨model, rfl, hmodel⟩
  | cons hhead _ ih =>
      obtain ⟨model', happly, hstores⟩ := hhead.applies model content hmodel
      obtain ⟨model'', hloop, hstores'⟩ := ih hstores
      refine ⟨model'', ?_, ?_⟩
      · rw [List.foldlM_cons, happly]
        exact hloop
      · rw [List.flatten_cons, List.foldl_append]
        exact hstores'

/-- What holds after a sync. -/
structure InStep (w : WeightState ps) (s : System T) : Prop where
  equals : Equals w s.model
  /-- Every flush that was published was yielded once, in order and with its flag. -/
  yielded : s.yielded = s.wire.published
  /-- The receive loop read the stream to its end. -/
  drained : s.wire.zmq = [] ∧ s.wire.nccl = []

/-- The state between two syncs. -/
structure Synced (w : WeightState ps) (s : System T) : Prop extends InStep w s where
  shardSeeded : s.trainer.shardSeeded = true
  seeded : Seeded w s.trainer

/-- One sync, whatever it publishes. -/
theorem sync_of_stream {F E : Type} {framing : Framing T F} {first : Bool}
    {cover : E → Set (Cell T)} {buckets : List (List E)} {flushes : List F} {cfg : EngineConfig T}
    {s : System T} {trainer : Trainer T} {content : Content T}
    (hsend : sendWeights cfg s.trainer s.wire w.toExports = .ok (trainer,
      writeStream framing.publish (publishTerminal first) s.wire flushes))
    (hshardSeeded : trainer.shardSeeded = true) (hseeded : Seeded w trainer)
    (hmoves : List.Forall₂ (framing.Moves w cover) buckets flushes)
    (hcover : ∀ p ∈ ps, ∀ i, content (p, i) ≠ w.content (p, i) →
      ∃ e ∈ buckets.flatten, (p, i) ∈ cover e)
    (hmodel : Stores ps s.model content) (hyielded : s.yielded = s.wire.published)
    (hdrained : s.wire.zmq = [] ∧ s.wire.nccl = []) :
    ∃ s', s.sync cfg w.toExports = .ok s' ∧ Synced w s' := by
  obtain ⟨zmq, nccl, hwire, hreceive⟩ :=
    Framing.receive_writeStream first s.wire (forall_reads hmoves)
  obtain ⟨model', happly, hstores⟩ := foldlM_applyDelta hmoves hmodel
  have hreceive := hreceive [] []
  rw [List.append_nil, List.append_nil] at hreceive
  rw [hdrained.1, hdrained.2, List.nil_append, List.nil_append] at hwire
  refine ⟨⟨trainer, ⟨[], [], s.wire.published ++ framing.flagged flushes⟩, model',
    s.yielded ++ framing.flagged flushes⟩, ?_, ⟨?_, ?_, ⟨rfl, rfl⟩⟩, hshardSeeded, hseeded⟩
  · rw [System.sync, hsend, hwire, Py.ok_bind]
    dsimp only
    rw [hreceive, Py.ok_bind, happly]
    rfl
  · exact Equals.of_overlay hstores hcover
  · exact congrArg (· ++ framing.flagged flushes) hyielded

/-- The first sync publishes every parameter. -/
theorem sync_unseeded (hT : T.Lawful) (hnames : (ps.map Param.name).Nodup) (cfg : EngineConfig T)
    {model : Model T} (hmodel : Hosts ps model) (w : WeightState ps) :
    ∃ s', (System.start model).sync cfg w.toExports = .ok s' ∧ Synced w s' := by
  obtain ⟨content, hstores⟩ := hmodel.exists_stores
  have hfits : ∀ p ∈ ps, (System.start model).trainer.Fits p := by
    refine fun p hp => ⟨fun rank snap hsnap => ?_, fun rank got hgot => ?_⟩
    · cases hsnap
    · cases hgot
  obtain ⟨trainer, buckets, flushes, hsend, hshardSeeded, hseeded, hmoves, hflatten⟩ :=
    sendWeights_unseeded hT hnames cfg w rfl hfits ⟨[], [], []⟩
  refine sync_of_stream hsend hshardSeeded hseeded hmoves (fun p hp i _ => ?_) hstores rfl
    ⟨rfl, rfl⟩
  rw [hflatten]
  exact ⟨_, List.mem_map_of_mem hp, rfl, trivial⟩

/-- A later sync publishes what changed. -/
theorem sync_seeded (hT : T.Lawful) (hnames : (ps.map Param.name).Nodup) (cfg : EngineConfig T)
    {old : WeightState ps} {s : System T} (h : Synced old s) (new : WeightState ps) :
    ∃ s', s.sync cfg new.toExports = .ok s' ∧ Synced new s' := by
  obtain ⟨trainer, buckets, flushes, hsend, hshardSeeded, hseeded, hmoves, hpublishes⟩ :=
    sendWeights_seeded hT hnames cfg new h.shardSeeded h.seeded s.wire
  refine sync_of_stream hsend hshardSeeded hseeded hmoves (fun p hp i hne => ?_) h.equals.stores
    h.yielded h.drained
  -- the cell differs, so it is among the changes
  have hchanges := Param.changes_wholeChanges hT (old.length_value p hp) (new.length_value p hp)
  obtain ⟨x, hx, rfl⟩ := List.mem_map.mp (hchanges.complete i hne)
  exact hpublishes.covers p hp x hx

/-! ## Runs -/

theorem syncs_synced (hT : T.Lawful) (hnames : (ps.map Param.name).Nodup) (cfg : EngineConfig T)
    {old : WeightState ps} {s : System T} (h : Synced old s) (ws : List (WeightState ps)) :
    ∃ states, s.syncs cfg (ws.map WeightState.toExports) = .ok states ∧
      List.Forall₂ InStep ws states := by
  induction ws generalizing old s with
  | nil => exact ⟨[], rfl, .nil⟩
  | cons w ws ih =>
      obtain ⟨s', hsync, hsynced⟩ := sync_seeded hT hnames cfg h w
      obtain ⟨states, hsyncs, hall⟩ := ih hsynced
      refine ⟨s' :: states, ?_, .cons hsynced.toInStep hall⟩
      rw [List.map_cons, System.syncs, hsync, Py.ok_bind, hsyncs]
      rfl

/-- Receiver and trainer are equal after every sync of every run. -/
theorem syncs_inStep (hT : T.Lawful) (hnames : (ps.map Param.name).Nodup) (cfg : EngineConfig T)
    {model : Model T} (hmodel : Hosts ps model) (ws : List (WeightState ps)) :
    ∃ states, (System.start model).syncs cfg (ws.map WeightState.toExports) = .ok states ∧
      List.Forall₂ InStep ws states := by
  cases ws with
  | nil => exact ⟨[], rfl, .nil⟩
  | cons w ws =>
      obtain ⟨s', hsync, hsynced⟩ := sync_unseeded hT hnames cfg hmodel w
      obtain ⟨states, hsyncs, hall⟩ := syncs_synced hT hnames cfg hsynced ws
      refine ⟨s' :: states, ?_, .cons hsynced.toInStep hall⟩
      rw [List.map_cons, System.syncs, hsync, Py.ok_bind, hsyncs]
      rfl

/-! ### Two parameters in bfloat16 -/

/-- A value as a 64-bit float, if it is zero or a normal number. -/
def doubleBits (v : UInt16) : Nat :=
  let exponent := v.toNat / 2 ^ 7 % 2 ^ 8
  v.toNat / 2 ^ 15 * 2 ^ 63 +
    if exponent = 0 then 0 else (exponent + 896) * 2 ^ 52 + v.toNat % 2 ^ 7 * 2 ^ 45

/-- The dtype in which the trainer exports its parameters. -/
def bfloat16 : Torch where
  DType := Unit
  Val _ := UInt16
  codec _ := ⟨2, fun v => Bytes.toLE 2 v.toNat, fun bytes => UInt16.ofNat (Bytes.ofLE bytes)⟩
  isFloatingPoint _ := true
  zero _ := 0
  nan _ := 0x7fc0
  isnan _ v := decide (0x7f80 < v.toNat % 2 ^ 15)
  uninit _ i := UInt16.ofNat i
  cast _ _ v := v
  catDType _ := ()
  hashTensor _ vs := vs.foldl (fun h v => h ^^^ doubleBits v) 0
  hashBytes bytes := bytes.foldl (fun h b => h ^^^ b.toNat) 0

theorem bfloat16_lawful : bfloat16.Lawful where
  codec_exact _ := by
    refine ⟨fun v => Bytes.length_toLE 2 v.toNat, fun v _ => ?_⟩
    have hlt : v.toNat < 256 ^ 2 := v.toNat_lt
    exact (congrArg UInt16.ofNat (Bytes.ofLE_toLE hlt)).trans UInt16.ofNat_toNat
  elementSize_mem _ _ := List.mem_cons_of_mem _ List.mem_cons_self
  isnan_nan _ _ := rfl
  cast_self _ _ := rfl
  cat_floating _ _ _ := rfl
  cat_widens _ _ _ _ := ⟨fun _ h => h, fun _ _ _ _ => rfl⟩

/-- Two rows on two ranks. -/
def twoRanks : Sharding where
  group := ⟨0, [0, 1], rfl⟩
  coordinate := id
  sizes := [2, 2]
  length_sizes := rfl
  coordinate_ranks := rfl

theorem sum_twoRanks : ∀ s ∈ some twoRanks, s.sizes.sum = prodshape [2, 2] := by
  intro s hs
  obtain rfl := Option.some.inj hs
  rfl

theorem sum_unsharded : ∀ s ∈ (none : Option Sharding), s.sizes.sum = prodshape [1] := by
  intro s hs
  cases hs

theorem four_lt : prodshape [2, 2] < 2 ^ 31 := by decide

theorem one_lt : prodshape [1] < 2 ^ 31 := by decide

def headWeight : Param bfloat16 :=
  ⟨"lm_head.weight", (), ⟨[2, 2], some twoRanks, sum_twoRanks⟩, rfl, four_lt⟩

def normWeight : Param bfloat16 :=
  ⟨"model.norm.weight", (), ⟨[1], none, sum_unsharded⟩, rfl, one_lt⟩

theorem weights_nodup : ([headWeight, normWeight].map Param.name).Nodup := by decide

/-- The values of the two parameters. -/
def weights (head norm : List UInt16) (p : Param bfloat16) : List UInt16 :=
  if p.name = "lm_head.weight" then head else norm

section Weights

variable {head norm : List UInt16}

theorem length_weights (hhead : head.length = 4) (hnorm : norm.length = 1) :
    ∀ p ∈ [headWeight, normWeight],
      (weights head norm p).length = prodshape p.spec.fullShape := by
  rw [List.forall_mem_cons, List.forall_mem_singleton]
  exact ⟨hhead, hnorm⟩

theorem weights_notNan
    (h : ((head ++ norm).all fun v => !decide (0x7f80 < v.toNat % 2 ^ 15)) = true) :
    ∀ p ∈ [headWeight, normWeight], ∀ v ∈ weights head norm p,
      bfloat16.isnan p.dtype v = false := by
  rw [List.all_eq_true] at h
  have hnan : ∀ v ∈ head ++ norm, decide (0x7f80 < v.toNat % 2 ^ 15) = false := fun v hv =>
    (Bool.not_eq_true' _).mp (h v hv)
  rw [List.forall_mem_cons, List.forall_mem_singleton]
  exact ⟨fun v hv => hnan v (List.mem_append_left _ hv),
    fun v hv => hnan v (List.mem_append_right _ hv)⟩

end Weights

def weightState₁ : WeightState [headWeight, normWeight] where
  value := weights [0x3f80, 0x4000, 0x4040, 0x4080] [0x3f80]
  length_value := length_weights rfl rfl
  notNan := weights_notNan rfl

/-- One value of the second rank has changed. -/
def weightState₂ : WeightState [headWeight, normWeight] where
  value := weights [0x3f80, 0x4000, 0xbf80, 0x4080] [0x3f80]
  length_value := length_weights rfl rfl
  notNan := weights_notNan rfl

/-- A dummy-initialized rollout. -/
def dummyModel (name : String) : Option (Tensor bfloat16) :=
  if name = "lm_head.weight" then some ⟨[2, 2], ⟨(), List.replicate 4 (0x3f00 : UInt16)⟩⟩
  else if name = "model.norm.weight" then some ⟨[1], ⟨(), [(0x3f00 : UInt16)]⟩⟩
  else none

theorem dummyModel_hosts : Hosts [headWeight, normWeight] dummyModel := by
  rw [Hosts, List.forall_mem_cons, List.forall_mem_singleton]
  exact ⟨⟨_, rfl, rfl⟩, ⟨_, rfl, rfl⟩⟩

/-- Every entry and every bucket has one element. -/
def smallBuckets : EngineConfig bfloat16 := ⟨1, 1, 1, (), Nat.one_pos⟩

/-- The third sync publishes no flush. -/
theorem syncs_inStep_three :
    ∃ states, (System.start dummyModel).syncs smallBuckets
        ([weightState₁, weightState₂, weightState₂].map WeightState.toExports) = .ok states ∧
      List.Forall₂ InStep [weightState₁, weightState₂, weightState₂] states :=
  syncs_inStep bfloat16_lawful weights_nodup smallBuckets dummyModel_hosts _

end Verl.DeltaSync
