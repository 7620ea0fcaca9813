import Verl.DeltaSync.Stream
import Verl.Lib.Overlay

/-!
# What a flush does to the model

`Stores` relates the model to its content, cell by cell.  A flush overwrites the
cells that its entries list with the trainer's values (`assembleFlush_stores`,
`denseFlush_stores`), however the receiver cuts it into chunks.
-/

namespace Verl.DeltaSync

open Overlay (overlay overlay_of_mem overlay_of_notMem)
open Slices (slice)

variable {T : Torch}

/-! ## Content -/

/-- A position of a parameter. -/
abbrev Cell (T : Torch) := Param T × Nat

/-- The values at the cells. -/
abbrev Content (T : Torch) := ∀ x : Cell T, Option (T.Val x.1.dtype)

/-- The positions in `s` of the parameters of a name. -/
def cells (name : String) (s : Set Nat) : Set (Cell T) := {x | x.1.name = name ∧ x.2 ∈ s}

def WeightState.content {ps : List (Param T)} (w : WeightState ps) : Content T :=
  fun x => (w.value x.1)[x.2]?

/-- The model has every parameter, in its shape and dtype and with this content. -/
def Stores (ps : List (Param T)) (model : Model T) (content : Content T) : Prop :=
  ∀ p ∈ ps, ∃ xs : List (T.Val p.dtype),
    model p.name = some ⟨p.spec.fullShape, ⟨p.dtype, xs⟩⟩ ∧
      xs.length = prodshape p.spec.fullShape ∧ ∀ i, xs[i]? = content (p, i)

section Load

variable {ps : List (Param T)} {w : WeightState ps} {model : Model T} {content : Content T}
  {copy : Flat T → Flat T → Flat T}

/-- Copying `t` onto `p` overwrites the positions in `s` with the values in `w`. -/
structure Overwrites (w : WeightState ps) (copy : Flat T → Flat T → Flat T) (p : Param T)
    (s : Set Nat) (t : Tensor T) : Prop where
  shape : t.shape = p.spec.fullShape
  copies : ∀ xs : List (T.Val p.dtype), xs.length = prodshape p.spec.fullShape →
    ∃ ys, copy ⟨p.dtype, xs⟩ t.flat = ⟨p.dtype, ys⟩ ∧ ys.length = xs.length ∧
      ∀ i, (i ∈ s → ys[i]? = (w.value p)[i]?) ∧ (i ∉ s → ys[i]? = xs[i]?)

theorem loadOne_stores (hnames : (ps.map Param.name).Nodup) (h : Stores ps model content)
    {p : Param T} (hp : p ∈ ps) {s : Set Nat} {t : Tensor T} (ht : Overwrites w copy p s t) :
    ∃ model', loadOne copy model (p.name, t) = .ok model' ∧
      Stores ps model' (overlay w.content (cells p.name s) content) := by
  obtain ⟨xs, hmodel, hlength, hcontent⟩ := h p hp
  obtain ⟨ys, hcopy, hys, hcells⟩ := ht.copies xs hlength
  have hload : loadOne copy model (p.name, t) = .ok (Function.update model p.name
      (some ⟨p.spec.fullShape, copy ⟨p.dtype, xs⟩ t.flat⟩)) := by
    rw [loadOne, hmodel]
    exact if_pos ht.shape.symm
  refine ⟨_, hload, fun q hq => ?_⟩
  by_cases hname : q.name = p.name
  · obtain rfl : q = p := List.inj_on_of_nodup_map hnames hq hp hname
    refine ⟨ys, ?_, hys.trans hlength, fun i => ?_⟩
    · rw [Function.update_self, hcopy]
    · by_cases hi : i ∈ s
      · have hmem : (q, i) ∈ cells q.name s := ⟨rfl, hi⟩
        rw [overlay_of_mem hmem, (hcells i).1 hi]
        rfl
      · rw [overlay_of_notMem fun hmem => hi hmem.2, (hcells i).2 hi, hcontent]
  · obtain ⟨zs, hmodel', hlength', hcontent'⟩ := h q hq
    refine ⟨zs, ?_, hlength', fun i => ?_⟩
    · rw [Function.update_of_ne hname, hmodel']
    · rw [overlay_of_notMem fun hmem => hname hmem.1, hcontent']

/-- What an entry of a flush decodes to. -/
structure Decodes {E : Type} (w : WeightState ps) (copy : Flat T → Flat T → Flat T)
    (decode : DeltaParam T → Except Py.Error (Tensor T)) (cover : E → Set (Cell T)) (e : E)
    (dp : DeltaParam T) : Prop where
  exists_tensor : ∃ t, decode dp = .ok t ∧ ∃ p ∈ ps, p.name = dp.name ∧ ∃ s,
    cover e = cells p.name s ∧ Overwrites w copy p s t

/-- The chunks of a flush overwrite what its entries cover. -/
theorem loadChunked_stores {E : Type} (hnames : (ps.map Param.name).Nodup)
    {decode : DeltaParam T → Except Py.Error (Tensor T)} {cover : E → Set (Cell T)}
    {es : List E} {params : List (DeltaParam T)}
    (hdecode : List.Forall₂ (Decodes w copy decode cover) es params)
    (h : Stores ps model content) :
    ∃ model', loadChunked copy decode model params = .ok model' ∧
      Stores ps model' (es.foldl (fun c e => overlay w.content (cover e) c) content) := by
  -- the tensors of the flush, decoded
  obtain ⟨xs, hxs, hloop⟩ : ∃ xs : List (String × Tensor T),
      List.Forall₂ (fun e x => ∃ p ∈ ps, p.name = x.1 ∧ ∃ s, cover e = cells p.name s ∧
        Overwrites w copy p s x.2) es xs ∧
      ∀ chunk, params.foldlM (fun chunk p => do
        let t ← decode p
        (chunker copy).push chunk (p.name, t)) chunk = xs.foldlM (chunker copy).push chunk := by
    clear h
    induction hdecode with
    | nil => exact ⟨[], .nil, fun _ => rfl⟩
    | cons hhead _ ih =>
        obtain ⟨t, ht, hoverwrites⟩ := hhead.exists_tensor
        obtain ⟨xs, hxs, hloop⟩ := ih
        refine ⟨(_, t) :: xs, .cons hoverwrites hxs, fun chunk => ?_⟩
        rw [List.foldlM_cons, List.foldlM_cons, ht, Py.ok_bind]
        exact congrArg _ (funext hloop)
  have hrun : loadChunked copy decode model params = xs.foldlM (loadOne copy) model := by
    rw [← Batching.Batcher.run_eq_foldlM (b := chunker copy) (fun _ _ => rfl)]
    rw [loadChunked, hloop]
    rfl
  rw [hrun]
  clear hrun hloop hdecode
  induction hxs generalizing model content with
  | nil => exact ⟨model, rfl, h⟩
  | cons hhead _ ih =>
      obtain ⟨p, hp, hname, s, hcover, hoverwrites⟩ := hhead
      obtain ⟨model', hload, hstores⟩ := loadOne_stores hnames h hp hoverwrites
      rw [List.foldlM_cons, List.foldl_cons]
      rw [hname] at hload
      rw [← hcover] at hstores
      obtain ⟨model'', hrest, hstores'⟩ := ih hstores
      refine ⟨model'', ?_, hstores'⟩
      rw [hload]
      exact hrest

end Load

/-! ## Copies -/

/-- The masked assignment, position by position. -/
theorem setMask_selectMask {α β : Type} (keep : β → Bool) (f : β → α) {self : List α}
    {src : List β} (h : self.length = src.length) :
    setMask (src.map keep) self ((selectMask (src.map keep) src).map f) =
      List.zipWith (fun x v => if keep v then f v else x) self src := by
  induction src generalizing self with
  | nil =>
      obtain rfl := List.length_eq_zero_iff.mp h
      rfl
  | cons v src ih =>
      cases self with
      | nil => cases h
      | cons x self =>
          have htail := ih (Nat.succ.inj h)
          rw [selectMask] at htail
          rw [selectMask, List.map_cons, List.zip_cons_cons, List.filter_cons,
            List.zipWith_cons_cons]
          cases hkeep : keep v with
          | true =>
              rw [if_pos rfl, List.map_cons, List.map_cons, setMask, htail, if_pos rfl]
          | false =>
              rw [if_neg Bool.false_ne_true, setMask, htail, if_neg Bool.false_ne_true]

section Copies

variable {ps : List (Param T)} {w : WeightState ps} {p : Param T}

theorem copy_self (hT : T.Lawful) {d : T.DType} (xs ys : List (T.Val d)) :
    (Flat.mk d xs).copy ⟨d, ys⟩ = ⟨d, ys⟩ :=
  congrArg (Flat.mk d) ((List.map_congr_left fun v _ => hT.cast_self d v).trans (List.map_id' ys))

/-- A whole parameter is copied. -/
theorem overwrites_copy (hT : T.Lawful) (hp : p ∈ ps) :
    Overwrites w Flat.copy p Set.univ ⟨p.spec.fullShape, ⟨p.dtype, w.value p⟩⟩ where
  shape := rfl
  copies xs hxs := by
    refine ⟨w.value p, copy_self hT xs _, (w.length_value p hp).trans hxs.symm, fun i => ?_⟩
    exact ⟨fun _ => rfl, fun hi => (hi trivial).elim⟩

/-- A tensor that is NaN outside of `s` overwrites `s`. -/
theorem overwrites_maskedCopy (hT : T.Lawful) (hp : p ∈ ps) {s : Set Nat}
    {data : List (T.Val p.dtype)} (hlength : data.length = prodshape p.spec.fullShape)
    (hdata : ∀ i, i < data.length →
      (i ∈ s → data[i]? = (w.value p)[i]?) ∧ (i ∉ s → data[i]? = some (T.nan p.dtype))) :
    Overwrites w maskedCopy p s ⟨p.spec.fullShape, ⟨p.dtype, data⟩⟩ where
  shape := rfl
  copies xs hxs := by
    have hsize : xs.length = data.length := hxs.trans hlength.symm
    have hnan := hT.isnan_nan p.dtype p.floating
    have hkeep : ∀ i v, data[i]? = some v → (T.isnan p.dtype v = false ↔ i ∈ s) := by
      intro i v hv
      obtain ⟨hi, -⟩ := List.getElem?_eq_some_iff.mp hv
      constructor
      · intro hfalse
        by_contra hs
        obtain rfl := Option.some.inj (hv.symm.trans ((hdata i hi).2 hs))
        rw [hnan] at hfalse
        cases hfalse
      · intro hs
        have hvalue := hv.symm.trans ((hdata i hi).1 hs)
        exact w.notNan p hp v (List.mem_of_getElem? hvalue.symm)
    have hout : ∀ i, ¬ i < data.length → (w.value p)[i]? = none ∧ xs[i]? = none := by
      intro i hi
      have hle := Nat.le_of_not_lt hi
      refine ⟨List.getElem?_eq_none ?_, List.getElem?_eq_none (hsize ▸ hle)⟩
      rw [w.length_value p hp, ← hlength]
      exact hle
    rw [maskedCopy]
    split
    next hmask =>
      have hzip := setMask_selectMask (fun v => !T.isnan p.dtype v) (T.cast p.dtype p.dtype) hsize
      refine ⟨_, congrArg (Flat.mk p.dtype) hzip, ?_, fun i => ?_⟩
      · rw [List.length_zipWith, hsize, Nat.min_self]
      · by_cases hi : i < data.length
        · have hx := List.getElem?_eq_getElem (hsize ▸ hi : i < xs.length)
          have hv := List.getElem?_eq_getElem hi
          have hiff := hkeep i _ hv
          have hget : (List.zipWith (fun x v => if !T.isnan p.dtype v then
              T.cast p.dtype p.dtype v else x) xs data)[i]? = some (if !T.isnan p.dtype data[i]
                then T.cast p.dtype p.dtype data[i] else xs[i]) := by
            rw [List.getElem?_zipWith, hx, hv]
          constructor
          · intro hs
            rw [hget, ← (hdata i hi).1 hs, hv]
            simp only [hiff.mpr hs, Bool.not_false, if_true, hT.cast_self]
          · intro hs
            rw [hget, hx]
            simp only [Bool.eq_true_of_not_eq_false (mt hiff.mp hs), Bool.not_true,
              Bool.false_eq_true, if_false]
        · obtain ⟨hw, hx⟩ := hout i hi
          rw [List.getElem?_zipWith, hx, hw]
          exact ⟨fun _ => rfl, fun _ => rfl⟩
    next hmask =>
      have hall : ∀ v ∈ data, T.isnan p.dtype v = false := by
        rw [not_and, not_not] at hmask
        have hmask := hmask p.floating
        rw [List.all_map, List.all_eq_true] at hmask
        intro v hv
        have hkept := hmask v hv
        rwa [Function.comp_apply, id, Bool.not_eq_true'] at hkept
      refine ⟨data, copy_self hT xs data, hsize.symm, fun i => ?_⟩
      by_cases hi : i < data.length
      · have hv := List.getElem?_eq_getElem hi
        have hs := (hkeep i _ hv).mp (hall _ (List.getElem_mem hi))
        exact ⟨(hdata i hi).1, fun hns => (hns hs).elim⟩
      · obtain ⟨hw, hx⟩ := hout i hi
        rw [List.getElem?_eq_none (Nat.le_of_not_lt hi), hw, hx]
        exact ⟨fun _ => rfl, fun _ => rfl⟩

end Copies

/-! ## Entries -/

section Entries

variable {ps : List (Param T)} {w : WeightState ps}

/-- The entry lists changes of `p`, each with the trainer's value. -/
structure Entry.Lists (w : WeightState ps) (e : Entry T) (p : Param T)
    (ch : List (Nat × T.Val p.dtype)) : Prop where
  mem : p ∈ ps
  name : e.name = p.name
  dtype : e.dtype = p.dtype
  shape : e.shape = p.spec.fullShape
  idx : e.idx = ch.map fun x => (x.1 : Int)
  val : Holds e.val p.dtype (ch.map Prod.snd)
  sound : ∀ x ∈ ch, (w.value p)[x.1]? = some x.2

def Entry.Ok (w : WeightState ps) (e : Entry T) : Prop := ∃ p ch, e.Lists w p ch

def Entry.cover (e : Entry T) : Set (Cell T) := cells e.name {i | (i : Int) ∈ e.idx}

theorem Entry.Ok.numel_val {e : Entry T} (h : e.Ok w) : e.val.numel = e.idx.length := by
  obtain ⟨p, ch, hlists⟩ := h
  rw [hlists.val.numel_eq, hlists.idx, List.length_map, List.length_map]

theorem Entry.Ok.floating {e : Entry T} (h : e.Ok w) :
    T.isFloatingPoint e.val.dtype = true := by
  obtain ⟨p, ch, hlists⟩ := h
  exact hlists.val.floating

/-- The writes of `index_copy_`, all from one target. -/
theorem indexCopy_spec {α : Type} {target : List α} (ch : List (Nat × α)) {flat : List α}
    (h : ∀ x ∈ ch, target[x.1]? = some x.2) (hlength : flat.length = target.length) :
    ∃ data, indexCopy flat (ch.map fun x => (x.1 : Int)) (ch.map Prod.snd) = .ok data ∧
      data.length = flat.length ∧ ∀ i, (i ∈ ch.map Prod.fst → data[i]? = target[i]?) ∧
        (i ∉ ch.map Prod.fst → data[i]? = flat[i]?) := by
  have hsizes : (ch.map fun x => (x.1 : Int)).length = (ch.map Prod.snd).length := by
    rw [List.length_map, List.length_map]
  rw [indexCopy, if_neg (not_not_intro hsizes), List.zip_map', List.foldlM_map]
  clear hsizes
  induction ch generalizing flat with
  | nil => exact ⟨flat, rfl, rfl, fun i => ⟨fun hi => (List.not_mem_nil hi).elim, fun _ => rfl⟩⟩
  | cons x ch ih =>
      have hx := h x List.mem_cons_self
      obtain ⟨hlt, -⟩ := List.getElem?_eq_some_iff.mp hx
      have hbounds : 0 ≤ (x.1 : Int) ∧ (x.1 : Int) < (flat.length : Int) := by omega
      obtain ⟨data, hloop, hdata, hcells⟩ := @ih (flat.set x.1 x.2)
        (fun y hy => h y (List.mem_cons_of_mem x hy)) (by rw [List.length_set, hlength])
      refine ⟨data, ?_, by rw [hdata, List.length_set], fun i => ?_⟩
      · rw [List.foldlM_cons, if_pos hbounds, Py.ok_bind, Int.toNat_natCast]
        exact hloop
      · rw [List.map_cons, List.mem_cons, not_or]
        by_cases hi : i ∈ ch.map Prod.fst
        · exact ⟨fun _ => (hcells i).1 hi, fun hnot => (hnot.2 hi).elim⟩
        · refine ⟨fun hmem => ?_, fun hnot => ?_⟩
          · obtain rfl := hmem.resolve_right hi
            rw [(hcells _).2 hi, hx, List.getElem?_set_self (by omega)]
          · rw [(hcells i).2 hi, List.getElem?_set_ne (Ne.symm hnot.1)]

/-- What is decoded from the right slices. -/
theorem decodeOne_eq (hT : T.Lawful) {positions : List UInt8} {values : Flat T}
    {dp : DeltaParam T} {p : Param T} {ch : List (Nat × T.Val p.dtype)}
    {data : List (T.Val p.dtype)} (hdtype : dp.dtype = p.dtype)
    (hshape : dp.shape = p.spec.fullShape)
    (hvalues : Holds (values.range dp.valStart dp.valEnd) p.dtype (ch.map Prod.snd))
    (hidx : viewInt32 dp.posStart (slice positions dp.posStart (dp.posEnd - dp.posStart)) =
      .ok (ch.map fun x => (x.1 : Int)))
    (hcopy : indexCopy (List.replicate (prodshape p.spec.fullShape) (T.nan p.dtype))
      (ch.map fun x => (x.1 : Int)) (ch.map Prod.snd) = .ok data)
    (hdata : data.length = prodshape p.spec.fullShape) :
    decodeOne positions values dp = .ok ⟨p.spec.fullShape, ⟨p.dtype, data⟩⟩ := by
  obtain ⟨name, dtype, shape, posStart, posEnd, posWidth, valStart, valEnd⟩ := dp
  obtain rfl : dtype = p.dtype := hdtype
  obtain rfl : shape = p.spec.fullShape := hshape
  have hfull : (Flat.mk p.dtype data).view p.spec.fullShape =
      .ok ⟨p.spec.fullShape, ⟨p.dtype, data⟩⟩ := if_pos hdata.symm
  rw [decodeOne]
  split
  next hzero =>
    rw [hvalues.numel_eq, List.length_map] at hzero
    obtain rfl := List.length_eq_zero_iff.mp hzero
    obtain rfl := Except.ok.inj hcopy
    exact hfull
  next =>
    rw [hidx, Py.ok_bind, hvalues.cast_self hT p.floating, hcopy]
    exact hfull

/-- An entry is found again at its offsets. -/
theorem decodeOne_decodes (hT : T.Lawful) {pre post : List (Entry T)} {e : Entry T}
    (hok : ∀ e' ∈ pre ++ e :: post, e'.Ok w) {start : Nat}
    (hstart : (pre.map fun e' => e'.idx.length).sum = start) :
    Decodes w maskedCopy
      (decodeOne (Bytes.int32.pack ((pre ++ e :: post).flatMap Entry.idx))
        (.cat ((pre ++ e :: post).map Entry.val)))
      Entry.cover e ⟨e.name, e.dtype, e.shape, start * 4, start * 4 + e.idx.length * 4, 4, start,
        start + e.idx.length⟩ := by
  have he := hok e (List.mem_append_right pre List.mem_cons_self)
  have hnumel := he.numel_val
  obtain ⟨p, ch, hlists⟩ := he
  have hmem := hlists.mem
  -- the values
  have hstarts : ((pre.map Entry.val).map Flat.numel).sum = start := by
    rw [← hstart, List.map_map]
    refine congrArg List.sum (List.map_congr_left fun e' he' => ?_)
    exact (hok e' (List.mem_append_left _ he')).numel_val
  have hvalues := Flat.slice_cat (pre.map Entry.val) e.val (post.map Entry.val)
  rw [hstarts, hnumel, ← List.map_cons, ← List.map_append] at hvalues
  have hheld : Holds ((Flat.cat ((pre ++ e :: post).map Entry.val)).slice start e.idx.length)
      p.dtype (ch.map Prod.snd) := by
    rw [hvalues]
    exact hlists.val.cast_cat hT (fun e' he' => (hok e' he').floating)
      (List.mem_append_right pre List.mem_cons_self)
  -- the positions
  have hpositions : slice (Bytes.int32.pack ((pre ++ e :: post).flatMap Entry.idx)) (start * 4)
      (e.idx.length * 4) = Bytes.int32.pack e.idx := by
    have hslice := Bytes.Codec.slice_pack Bytes.int32_exact
      ((pre ++ e :: post).flatMap Entry.idx) start e.idx.length
    have hlength : (pre.flatMap Entry.idx).length = start := by
      rw [List.length_flatMap, hstart]
    rw [List.flatMap_append, List.flatMap_cons, Slices.slice_append_middle hlength rfl] at hslice
    rw [List.flatMap_append, List.flatMap_cons]
    exact hslice
  have hrange : ∀ i ∈ e.idx, -2 ^ 31 ≤ i ∧ i < 2 ^ 31 := by
    intro i hi
    rw [hlists.idx] at hi
    obtain ⟨x, hx, rfl⟩ := List.mem_map.mp hi
    obtain ⟨hlt, -⟩ := List.getElem?_eq_some_iff.mp (hlists.sound x hx)
    rw [w.length_value p hmem] at hlt
    have hbound := p.numel_lt
    omega
  have hview : viewInt32 (start * 4) (Bytes.int32.pack e.idx) = .ok e.idx := by
    have hlength : (Bytes.int32.pack e.idx).length % 4 = 0 := by
      rw [Bytes.Codec.length_pack Bytes.int32_exact]
      exact Nat.mul_mod_left _ _
    rw [viewInt32, if_pos ⟨Nat.mul_mod_left _ _, hlength⟩,
      Bytes.Codec.unpack_pack Bytes.int32_exact (by decide) hrange]
  obtain ⟨data, hcopy, hdata, hcells⟩ := @indexCopy_spec _ (w.value p) ch
    (List.replicate (prodshape p.spec.fullShape) (T.nan p.dtype)) hlists.sound
    (by rw [List.length_replicate, w.length_value p hmem])
  rw [List.length_replicate] at hdata
  have hcover : e.cover = cells p.name {i | (i : Int) ∈ e.idx} := by rw [Entry.cover, hlists.name]
  have hset : ∀ i : Nat, (i : Int) ∈ e.idx ↔ i ∈ ch.map Prod.fst := by
    intro i
    rw [hlists.idx, List.mem_map, List.mem_map]
    simp only [Int.natCast_inj]
  have hoverwrites : Overwrites w maskedCopy p {i | (i : Int) ∈ e.idx}
      ⟨p.spec.fullShape, ⟨p.dtype, data⟩⟩ := by
    refine overwrites_maskedCopy hT hmem hdata fun i hi => ?_
    rw [hdata] at hi
    refine ⟨fun hs => (hcells i).1 ((hset i).mp hs), fun hs => ?_⟩
    rw [(hcells i).2 fun hmem => hs ((hset i).mpr hmem), List.getElem?_replicate, if_pos hi]
  refine ⟨⟨p.spec.fullShape, ⟨p.dtype, data⟩⟩, ?_, p, hmem, hlists.name.symm, _, hcover,
    hoverwrites⟩
  refine decodeOne_eq hT hlists.dtype hlists.shape ?_ ?_ hcopy hdata
  · rw [Flat.range, Nat.add_sub_cancel_left]
    exact hheld
  · rw [Nat.add_sub_cancel_left, hpositions, hview, hlists.idx]

/-- The checksum is the one that the sender computed. -/
theorem applyDelta_indices (model : Model T) {first : Bool} {flush : DeltaFlush T}
    (h : checksum flush.positions flush.values = flush.checksum) :
    applyDelta model ((deltaFraming first).named flush) =
      loadChunked maskedCopy (decodeOne flush.positions flush.values) model flush.params :=
  if_neg (not_not_intro h)

theorem applyDelta_dense (model : Model T) (flush : DenseFlush T) :
    applyDelta model (denseFraming.named flush) =
      loadChunked Flat.copy (denseOne flush.values) model flush.params :=
  if_neg (not_not_intro rfl)

/-- The manifest of a bucket, from some entry on. -/
theorem assembleParams_decodes (hT : T.Lawful) {pre es : List (Entry T)}
    (hok : ∀ e ∈ pre ++ es, e.Ok w) {start : Nat}
    (hstart : (pre.map fun e => e.idx.length).sum = start) :
    ∃ params, assembleParams (start * 4) start es = .ok params ∧
      List.Forall₂ (Decodes w maskedCopy
        (decodeOne (Bytes.int32.pack ((pre ++ es).flatMap Entry.idx))
          (.cat ((pre ++ es).map Entry.val))) Entry.cover) es params := by
  induction es generalizing pre start with
  | nil => exact ⟨[], rfl, .nil⟩
  | cons e es ih =>
      have hhead := decodeOne_decodes hT hok hstart
      have hsum : ((pre ++ [e]).map fun e => e.idx.length).sum = start + e.idx.length := by
        rw [List.map_append, List.sum_append, hstart, List.map_singleton, List.sum_singleton]
      have happend : (pre ++ [e]) ++ es = pre ++ e :: es := by
        rw [List.append_assoc, List.singleton_append]
      obtain ⟨params, hparams, htail⟩ := @ih (pre ++ [e]) (happend ▸ hok) _ hsum
      rw [happend] at htail
      have hsize : prodshape e.shape < 2 ^ 31 := by
        obtain ⟨p, ch, hlists⟩ := hok e (List.mem_append_right pre List.mem_cons_self)
        rw [hlists.shape]
        exact p.numel_lt
      refine ⟨_ :: params, ?_, .cons hhead htail⟩
      rw [Nat.add_mul] at hparams
      rw [assembleParams, Py.check_of_true hsize, Py.ok_bind, hparams]
      rfl

/-- A bucket becomes a flush that overwrites what the bucket covers. -/
theorem assembleFlush_stores (hT : T.Lawful) (hnames : (ps.map Param.name).Nodup)
    (cfg : EngineConfig T) {bucket : List (Entry T)} (hne : bucket ≠ [])
    (hok : ∀ e ∈ bucket, e.Ok w) :
    ∃ flush, assembleFlush cfg bucket = .ok flush ∧
      T.isFloatingPoint flush.values.dtype = true ∧
      ∀ model content, Stores ps model content →
        ∃ model', applyDelta model ((deltaFraming false).named flush) = .ok model' ∧
          Stores ps model' (bucket.foldl (fun c e => overlay w.content e.cover c) content) := by
  obtain ⟨params, hparams, hdecodes⟩ := @assembleParams_decodes T ps w hT [] bucket hok 0 rfl
  rw [Nat.zero_mul] at hparams
  rw [List.nil_append] at hdecodes
  have hvalues : (if bucket.isEmpty then Flat.empty cfg.rolloutDType
      else Flat.cat (bucket.map Entry.val)) = Flat.cat (bucket.map Entry.val) :=
    if_neg fun hempty => hne (List.isEmpty_iff.mp hempty)
  obtain ⟨positions, hpositions⟩ :
      ∃ positions, positions = Bytes.int32.pack (bucket.flatMap Entry.idx) := ⟨_, rfl⟩
  have hflush : assembleFlush cfg bucket = .ok ⟨params, positions, .cat (bucket.map Entry.val),
      checksum positions (.cat (bucket.map Entry.val))⟩ := by
    rw [assembleFlush, hparams, Py.ok_bind, hvalues, hpositions]
    rfl
  rw [← hpositions] at hdecodes
  refine ⟨_, hflush, ?_, fun model content hmodel => ?_⟩
  · exact hT.floating_cat hne fun e he => (hok e he).floating
  · obtain ⟨model', hload, hstores⟩ := loadChunked_stores hnames hdecodes hmodel
    exact ⟨model', (applyDelta_indices model rfl).trans hload, hstores⟩

end Entries

/-! ## Dense entries -/

section Dense

variable {ps : List (Param T)} {w : WeightState ps}

/-- The entry is a whole parameter. -/
def DenseEntry.Ok (w : WeightState ps) (e : DenseEntry T) : Prop :=
  ∃ p ∈ ps, e = ⟨p.name, p.dtype, p.spec.fullShape, ⟨p.dtype, w.value p⟩⟩

def DenseEntry.cover (e : DenseEntry T) : Set (Cell T) := cells e.name Set.univ

theorem DenseEntry.Ok.floating {e : DenseEntry T} (h : e.Ok w) :
    T.isFloatingPoint e.flat.dtype = true := by
  obtain ⟨p, -, rfl⟩ := h
  exact p.floating

/-- The manifest of a bucket, from some entry on. -/
theorem denseParams_decodes (hT : T.Lawful) {pre es : List (DenseEntry T)}
    (hok : ∀ e ∈ pre ++ es, e.Ok w) {start : Nat}
    (hstart : (pre.map fun e => e.flat.numel).sum = start) :
    List.Forall₂ (Decodes w Flat.copy
      (denseOne (.cat ((pre ++ es).map DenseEntry.flat))) DenseEntry.cover) es
        (denseParams start es) := by
  induction es generalizing pre start with
  | nil => exact .nil
  | cons e es ih =>
      have hsum : ((pre ++ [e]).map fun e => e.flat.numel).sum = start + e.flat.numel := by
        rw [List.map_append, List.sum_append, hstart, List.map_singleton, List.sum_singleton]
      have happend : (pre ++ [e]) ++ es = pre ++ e :: es := by
        rw [List.append_assoc, List.singleton_append]
      have htail := @ih (pre ++ [e]) (happend ▸ hok) _ hsum
      rw [happend] at htail
      refine .cons ?_ htail
      have hvalues := Flat.slice_cat (pre.map DenseEntry.flat) e.flat (es.map DenseEntry.flat)
      rw [← List.map_cons, ← List.map_append, List.map_map] at hvalues
      have hmem : e ∈ pre ++ e :: es := List.mem_append_right pre List.mem_cons_self
      obtain ⟨p, hp, rfl⟩ := hok e hmem
      have hheld := Holds.cast_cat hT (f := DenseEntry.flat)
        (Holds.refl p.floating (w.notNan p hp)) (fun e' he' => (hok e' he').floating) hmem
      have hview : (Flat.mk p.dtype (w.value p)).view p.spec.fullShape =
          .ok ⟨p.spec.fullShape, ⟨p.dtype, w.value p⟩⟩ := if_pos (w.length_value p hp).symm
      refine ⟨⟨_, ?_, p, hp, rfl, _, rfl, overwrites_copy hT hp⟩⟩
      have hback := congrArg (Flat.mk p.dtype) (hheld.cast_self hT p.floating)
      have hslice :=
        (congrArg (fun n => Flat.slice _ n (w.value p).length) hstart).symm.trans hvalues
      rw [denseOne, Flat.range, Nat.add_sub_cancel_left]
      refine (congrArg (fun t => (Flat.cast t p.dtype).view p.spec.fullShape) hslice).trans ?_
      exact (congrArg (fun t => Flat.view t p.spec.fullShape) hback).trans hview

/-- A bucket of whole parameters becomes a flush that overwrites them. -/
theorem denseFlush_stores (hT : T.Lawful) (hnames : (ps.map Param.name).Nodup)
    {bucket : List (DenseEntry T)} (hok : ∀ e ∈ bucket, e.Ok w) {model : Model T}
    {content : Content T} (hmodel : Stores ps model content) :
    ∃ model', applyDelta model (denseFraming.named
        ⟨denseParams 0 bucket, .cat (bucket.map DenseEntry.flat)⟩) = .ok model' ∧
      Stores ps model' (bucket.foldl (fun c e => overlay w.content e.cover c) content) := by
  have hdecodes := @denseParams_decodes T ps w hT [] bucket hok 0 rfl
  obtain ⟨model', hload, hstores⟩ := loadChunked_stores hnames hdecodes hmodel
  exact ⟨model', (applyDelta_dense model _).trans hload, hstores⟩

end Dense

end Verl.DeltaSync
