import Verl.Checkpoint.Mooncake

/-!
# The buckets of a list of weights

`packBuckets` says into which buckets `send_weights` packs the weights, whatever
the other ranks do.  A bucket takes weights as long as they fit, and the last one
is marked.  The tensors of the buckets are the weights in their order
(`tensors_packBuckets`), and every tensor lies in its bucket at an offset that its
type can be viewed at (`packBuckets_ok`).
-/

namespace Verl

open Slices (slice)

/-- A bucket, as it is announced and as it is read. -/
structure MooncakeBucket where
  bucketMeta : List (String × MooncakeMeta)
  data : List UInt8
  isLast : Bool

/-- The message about the bucket with the number `j`. -/
def MooncakeBucket.info (j : Nat) (bucket : MooncakeBucket) : MooncakeInfo :=
  ⟨bucket.bucketMeta, slotOf j, slotOf j, bucket.data.length, bucket.isLast⟩

/-- The tensor of an entry of `bucket_meta`. -/
def tensorAt (data : List UInt8) (item : String × MooncakeMeta) : Tensor :=
  ⟨item.1, item.2.shape, item.2.dtype, (slice data item.2.offset item.2.size).map some⟩

def MooncakeBucket.tensors (bucket : MooncakeBucket) : List Tensor :=
  bucket.bucketMeta.map (tensorAt bucket.data)

/-- The entry of a weight that is placed at `offset`. -/
def metaAt (w : Weight) (offset : Nat) : MooncakeMeta := ⟨w.name, w.shape, w.dtype, offset⟩

/-- The buckets of the weights that are left, when `bucketMeta` and `data` are in the
bucket that is filled. -/
def packFrom (bucketSize : Nat) :
    List Weight → Py.Dict String MooncakeMeta → List UInt8 → List MooncakeBucket
  | [], bucketMeta, data => [⟨bucketMeta.entries, data, true⟩]
  | w :: weights, bucketMeta, data =>
      if bucketSize < data.length + w.nbytes then
        ⟨bucketMeta.entries, data, false⟩ ::
          packFrom bucketSize weights (Py.Dict.empty.set w.name (metaAt w 0)) w.data
      else
        packFrom bucketSize weights (bucketMeta.set w.name (metaAt w data.length)) (data ++ w.data)

def packBuckets (bucketSize : Nat) (weights : List Weight) : List MooncakeBucket :=
  packFrom bucketSize weights .empty []

/-- What is assumed of the weights and of the bucket size.  All weights have been
converted to one type. -/
structure MooncakeWeightsOk (bucketSize itemsize : Nat) (weights : List Weight) : Prop where
  itemsize_dvd : itemsize ∣ bucketSize
  names : (weights.map Weight.name).Nodup
  fits : ∀ w ∈ weights, w.nbytes ≤ bucketSize
  itemsize_eq : ∀ w ∈ weights, w.dtype.itemsize = itemsize

/-- Where the tensors of a bucket lie. -/
structure MooncakeBucketOk (bucketSize itemsize : Nat)
    (bucketMeta : List (String × MooncakeMeta)) (data : List UInt8) : Prop where
  length_le : data.length ≤ bucketSize
  aligned : itemsize ∣ data.length
  items : ∀ item ∈ bucketMeta, item.2.dtype.itemsize = itemsize ∧ itemsize ∣ item.2.offset ∧
    item.2.offset + item.2.size ≤ data.length

section

variable {bucketSize itemsize : Nat} {weights : List Weight} {w : Weight}
  {bucketMeta : Py.Dict String MooncakeMeta} {data : List UInt8}

theorem size_metaAt (w : Weight) (offset : Nat) : (metaAt w offset).size = w.nbytes :=
  w.nbytes_eq.symm

theorem empty_ok : MooncakeBucketOk bucketSize itemsize
    (Py.Dict.empty : Py.Dict String MooncakeMeta).entries [] where
  length_le := Nat.zero_le _
  aligned := Nat.dvd_zero _
  items := fun _ hitem => absurd hitem List.not_mem_nil

/-- A weight is placed behind those that are in the bucket. -/
theorem MooncakeBucketOk.place
    (h : MooncakeBucketOk bucketSize itemsize bucketMeta.entries data)
    (hfits : data.length + w.nbytes ≤ bucketSize) (hsize : w.dtype.itemsize = itemsize) :
    MooncakeBucketOk bucketSize itemsize
      (bucketMeta.set w.name (metaAt w data.length)).entries (data ++ w.data) where
  length_le := by
    rw [List.length_append]
    exact hfits
  aligned := by
    rw [List.length_append, w.nbytes_eq, hsize]
    exact Nat.dvd_add h.aligned (Nat.dvd_mul_left _ _)
  items := by
    intro item hitem
    rw [List.length_append]
    obtain rfl | hold := Py.Dict.mem_setEntries hitem
    · exact ⟨hsize, h.aligned, Nat.le_of_eq (by rw [size_metaAt]; rfl)⟩
    · obtain ⟨hitemsize, hoffset, hle⟩ := h.items item hold
      exact ⟨hitemsize, hoffset, Nat.le_add_right_of_le hle⟩

/-- The first weight of a bucket. -/
theorem placed_ok (hfits : w.nbytes ≤ bucketSize) (hsize : w.dtype.itemsize = itemsize) :
    MooncakeBucketOk bucketSize itemsize (Py.Dict.empty.set w.name (metaAt w 0)).entries
      w.data :=
  empty_ok.place (by rw [List.length_nil, Nat.zero_add]; exact hfits) hsize

theorem packFrom_cons_of_lt (h : bucketSize < data.length + w.nbytes) :
    packFrom bucketSize (w :: weights) bucketMeta data =
      ⟨bucketMeta.entries, data, false⟩ ::
        packFrom bucketSize weights (Py.Dict.empty.set w.name (metaAt w 0)) w.data := if_pos h

theorem packFrom_cons_of_le (h : data.length + w.nbytes ≤ bucketSize) :
    packFrom bucketSize (w :: weights) bucketMeta data =
      packFrom bucketSize weights (bucketMeta.set w.name (metaAt w data.length))
        (data ++ w.data) := if_neg (Nat.not_lt.mpr h)

/-- A weight that does not fit begins a bucket. -/
theorem packFrom_cons_empty (h : w.nbytes ≤ bucketSize) :
    packFrom bucketSize (w :: weights) .empty [] =
      packFrom bucketSize weights (Py.Dict.empty.set w.name (metaAt w 0)) w.data :=
  packFrom_cons_of_le (by rw [List.length_nil, Nat.zero_add]; exact h)

theorem packFrom_ne_nil (bucketSize : Nat) (weights : List Weight)
    (bucketMeta : Py.Dict String MooncakeMeta) (data : List UInt8) :
    packFrom bucketSize weights bucketMeta data ≠ [] := by
  induction weights generalizing bucketMeta data with
  | nil => exact List.cons_ne_nil _ _
  | cons w weights ih =>
      rw [packFrom]
      split
      · exact List.cons_ne_nil _ _
      · exact ih _ _

/-- Exactly the last bucket is marked. -/
theorem packFrom_isLast {j : Nat} {bucket : MooncakeBucket}
    (h : (packFrom bucketSize weights bucketMeta data)[j]? = some bucket) :
    bucket.isLast = decide (j + 1 = (packFrom bucketSize weights bucketMeta data).length) := by
  induction weights generalizing bucketMeta data j with
  | nil =>
      cases j with
      | zero =>
          cases h
          rfl
      | succ j => cases h
  | cons w weights ih =>
      rw [packFrom] at h ⊢
      split at h
      next hfull =>
        rw [if_pos hfull, List.length_cons]
        cases j with
        | zero =>
            cases h
            have hpos := List.length_pos_iff.mpr (packFrom_ne_nil bucketSize weights
              (Py.Dict.empty.set w.name (metaAt w 0)) w.data)
            exact (decide_eq_false (by omega)).symm
        | succ j =>
            rw [List.getElem?_cons_succ] at h
            rw [ih h]
            exact decide_eq_decide.mpr (Nat.add_right_cancel_iff.symm)
      next hfull =>
        rw [if_neg hfull]
        exact ih h

/-- The tensors of every bucket lie where they can be viewed. -/
theorem packFrom_ok (hfits : ∀ w ∈ weights, w.nbytes ≤ bucketSize)
    (hsize : ∀ w ∈ weights, w.dtype.itemsize = itemsize)
    (h : MooncakeBucketOk bucketSize itemsize bucketMeta.entries data) {bucket : MooncakeBucket}
    (hbucket : bucket ∈ packFrom bucketSize weights bucketMeta data) :
    MooncakeBucketOk bucketSize itemsize bucket.bucketMeta bucket.data := by
  induction weights generalizing bucketMeta data with
  | nil =>
      rw [List.mem_singleton.mp hbucket]
      exact h
  | cons w weights ih =>
      have hw := hfits w List.mem_cons_self
      have hwsize := hsize w List.mem_cons_self
      have ih := fun {bucketMeta data} => @ih bucketMeta data
        (fun w hw => hfits w (List.mem_cons_of_mem _ hw))
        (fun w hw => hsize w (List.mem_cons_of_mem _ hw))
      rw [packFrom] at hbucket
      split at hbucket
      next hfull =>
        obtain rfl | hbucket := List.mem_cons.mp hbucket
        · exact h
        · exact ih (placed_ok hw hwsize) hbucket
      next hfull => exact ih (h.place (Nat.not_lt.mp hfull) hwsize) hbucket

/-- Bytes that are put behind a bucket do not change its tensors. -/
theorem tensorAt_append {item : String × MooncakeMeta}
    (h : item.2.offset + item.2.size ≤ data.length) (more : List UInt8) :
    tensorAt (data ++ more) item = tensorAt data item := by
  rw [tensorAt, tensorAt, slice, slice, List.drop_append_of_le_length (by omega),
    List.take_append_of_le_length (by rw [List.length_drop]; omega)]

theorem tensorAt_metaAt (data : List UInt8) (w : Weight) :
    tensorAt (data ++ w.data) (w.name, metaAt w data.length) = w.tensor := by
  rw [tensorAt, slice, size_metaAt, metaAt, List.drop_left, Weight.nbytes, List.take_length]
  rfl

/-- The tensors after a weight of a new name is placed. -/
theorem map_tensorAt_place (bytes : List UInt8)
    (h : ∀ item ∈ bucketMeta.entries, item.2.offset + item.2.size ≤ bytes.length)
    (hname : w.name ∉ bucketMeta.keys) :
    (bucketMeta.set w.name (metaAt w bytes.length)).entries.map (tensorAt (bytes ++ w.data)) =
      bucketMeta.entries.map (tensorAt bytes) ++ [w.tensor] := by
  rw [Py.Dict.entries_set_of_not_mem hname, List.map_append, List.map_singleton,
    tensorAt_metaAt, List.append_left_inj]
  exact List.map_congr_left fun item hitem => tensorAt_append (h item hitem) w.data

/-- The tensors of the buckets are those in the bucket that is filled, and then the
weights. -/
theorem tensors_packFrom (hfits : ∀ w ∈ weights, w.nbytes ≤ bucketSize)
    (hsize : ∀ w ∈ weights, w.dtype.itemsize = itemsize)
    (hnames : (bucketMeta.keys ++ weights.map Weight.name).Nodup)
    (h : MooncakeBucketOk bucketSize itemsize bucketMeta.entries data) :
    (packFrom bucketSize weights bucketMeta data).flatMap MooncakeBucket.tensors =
      bucketMeta.entries.map (tensorAt data) ++ weights.map Weight.tensor := by
  induction weights generalizing bucketMeta data with
  | nil => rfl
  | cons w weights ih =>
      have hw := hfits w List.mem_cons_self
      have hwsize := hsize w List.mem_cons_self
      have ih := fun {bucketMeta data} => @ih bucketMeta data
        (fun w hw => hfits w (List.mem_cons_of_mem _ hw))
        (fun w hw => hsize w (List.mem_cons_of_mem _ hw))
      rw [List.map_cons] at hnames
      by_cases hfull : bucketSize < data.length + w.nbytes
      · have hempty : w.name ∉ (Py.Dict.empty : Py.Dict String MooncakeMeta).keys :=
          List.not_mem_nil
        have htensor : (Py.Dict.empty.set w.name (metaAt w 0)).entries.map (tensorAt w.data) =
            [w.tensor] :=
          map_tensorAt_place [] (fun _ hitem => absurd hitem List.not_mem_nil) hempty
        rw [packFrom_cons_of_lt hfull, List.flatMap_cons, ih ?_ (placed_ok hw hwsize), htensor]
        · rfl
        · rw [Py.Dict.keys_set, if_neg hempty]
          exact (List.nodup_append.mp hnames).2.1
      · have hle := Nat.not_lt.mp hfull
        have hname : w.name ∉ bucketMeta.keys := fun hin =>
          (List.nodup_append.mp hnames).2.2 _ hin _ List.mem_cons_self rfl
        rw [packFrom_cons_of_le hle, ih ?_ (h.place hle hwsize),
          map_tensorAt_place data (fun item hitem => (h.items item hitem).2.2) hname,
          List.append_assoc]
        · rfl
        · rw [Py.Dict.keys_set, if_neg hname, List.append_assoc]
          exact hnames

end

section

variable {bucketSize itemsize : Nat} {weights : List Weight}

theorem length_packBuckets_pos (bucketSize : Nat) (weights : List Weight) :
    0 < (packBuckets bucketSize weights).length :=
  List.length_pos_iff.mpr (packFrom_ne_nil bucketSize weights .empty [])

theorem packBuckets_ok (hw : MooncakeWeightsOk bucketSize itemsize weights)
    {bucket : MooncakeBucket} (hbucket : bucket ∈ packBuckets bucketSize weights) :
    MooncakeBucketOk bucketSize itemsize bucket.bucketMeta bucket.data :=
  packFrom_ok hw.fits hw.itemsize_eq empty_ok hbucket

/-- The tensors of all buckets are the weights. -/
theorem tensors_packBuckets (hw : MooncakeWeightsOk bucketSize itemsize weights) :
    (packBuckets bucketSize weights).flatMap MooncakeBucket.tensors =
      weights.map Weight.tensor :=
  tensors_packFrom hw.fits hw.itemsize_eq hw.names empty_ok

end

end Verl
