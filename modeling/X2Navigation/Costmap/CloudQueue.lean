import X2Navigation.Costmap.PointCloudObstacleLayer
import X2Navigation.Traced.Conveyor

/-! What becomes of the clouds that wait for their transforms. A call settles the
fate of every cloud in a queue: it stays, or it leaves for a stated reason. A
cloud that is used takes along every older one, so the observation buffers see
the clouds in the order of their arrival. -/

namespace X2Navigation.PointCloudObstacleLayer

open Traced

/-! ### Reading states and traces -/

def queue (i : ℕ) (s : State) : List PendingCloud := s.sources[i]?.elim [] Source.pending

def sensorFrame (i : ℕ) (s : State) : String := s.sources[i]?.elim "" Source.sensorFrame

/-- The number of the look that a pass takes at the oldest cloud of a queue. -/
def firstLook (i : ℕ) (s : State) : ℕ := ((s.sources.take i).map (·.pending.length)).sum

namespace Occurrence

def arrivedAt? (i : ℕ) : Occurrence → Option PendingCloud
  | .arrived source pending => if source = i then some pending else none
  | _ => none

def bufferedAt? (i : ℕ) : Occurrence → Option PendingCloud
  | .buffered source pending _ => if source = i then some pending else none
  | _ => none

end Occurrence

/-- The clouds put in the queue of a source. -/
def arrivals (i : ℕ) (trace : List Occurrence) : List PendingCloud :=
  trace.filterMap (Occurrence.arrivedAt? i)

/-- The clouds handed to the observation buffer of a source. -/
def buffered (i : ℕ) (trace : List Occurrence) : List PendingCloud :=
  trace.filterMap (Occurrence.bufferedAt? i)

/-- The clouds a source has received, with the times of that. -/
def enqueued (i : ℕ) (calls : List Call) : List PendingCloud :=
  calls.filterMap fun call =>
    match call with
    | .enqueue source cloud now => if source = i then some ⟨cloud, now⟩ else none
    | _ => none

@[simp] theorem buffered_nil (i : ℕ) : buffered i [] = [] := rfl

@[simp] theorem buffered_append (i : ℕ) (trace more : List Occurrence) :
    buffered i (trace ++ more) = buffered i trace ++ buffered i more := List.filterMap_append

theorem buffered_cons_self (i : ℕ) (e : PendingCloud) (now : TimePoint) (trace : List Occurrence) :
    buffered i (.buffered i e now :: trace) = e :: buffered i trace := by
  simp [buffered, Occurrence.bufferedAt?]

@[simp] theorem arrivals_nil (i : ℕ) : arrivals i [] = [] := rfl

@[simp] theorem arrivals_append (i : ℕ) (trace more : List Occurrence) :
    arrivals i (trace ++ more) = arrivals i trace ++ arrivals i more := List.filterMap_append

/-! ### Fates -/

/-- What a call does with a cloud in a queue. -/
inductive Fate
  | waits
  | buffered
  | expired
  | superseded
  | untransformable
  | overflowed
  | discarded
  deriving DecidableEq

/-- The clouds of a queue, oldest first, each with the number of the look that a
pass takes at it and with its fate. -/
abbrev Fates := List ((PendingCloud × ℕ) × Fate)

def having (fate : Fate) (fates : Fates) : List PendingCloud :=
  fates.filterMap fun x => if x.2 = fate then some x.1.1 else none

@[simp] theorem having_nil (fate : Fate) : having fate [] = [] := rfl

@[simp] theorem having_append (fate : Fate) (fates more : Fates) :
    having fate (fates ++ more) = having fate fates ++ having fate more := List.filterMap_append

@[simp] theorem having_cons_self (fate : Fate) (e : PendingCloud × ℕ) (fates : Fates) :
    having fate ((e, fate) :: fates) = e.1 :: having fate fates := by
  simp [having]

theorem having_cons_of_ne {fate fate' : Fate} (h : fate' ≠ fate) (e : PendingCloud × ℕ) (fates : Fates) :
    having fate ((e, fate') :: fates) = having fate fates := by
  simp [having, h]

theorem fst_map_fate (fate : Fate) (clouds : List (PendingCloud × ℕ)) :
    (clouds.map (·, fate)).map Prod.fst = clouds := by
  rw [List.map_map]
  exact List.map_id clouds

theorem having_map_self (fate : Fate) (clouds : List (PendingCloud × ℕ)) :
    having fate (clouds.map (·, fate)) = clouds.map Prod.fst := by
  induction clouds with
  | nil => rfl
  | cons e clouds ih => rw [List.map_cons, having_cons_self, ih, List.map_cons]

theorem having_map_of_ne {fate fate' : Fate} (h : fate' ≠ fate) (clouds : List (PendingCloud × ℕ)) :
    having fate (clouds.map (·, fate')) = [] := by
  induction clouds with
  | nil => rfl
  | cons e clouds ih => rw [List.map_cons, having_cons_of_ne h, ih]

theorem having_eq_nil {fate : Fate} {fates : Fates} (h : ∀ x ∈ fates, x.2 ≠ fate) :
    having fate fates = [] := by
  induction fates with
  | nil => rfl
  | cons x fates ih =>
    obtain ⟨hx, hrest⟩ := List.forall_mem_cons.mp h
    rw [having_cons_of_ne hx, ih hrest]

variable {K : Type*} [Field K] [LinearOrder K] (p : Params K)

/-- The look at a cloud found both of its transforms, and it was not yet too old. -/
def Usable (look : Look) (frame : String) (e : PendingCloud) : Prop :=
  ∃ stamp, e.cloud.header.stamp.rclcpp = .ok stamp ∧ expired p look e = false ∧
    ready p look frame e.cloud stamp = true

/-- The look at a cloud did not find both of its transforms. -/
def Untransformable (look : Look) (frame : String) (e : PendingCloud) : Prop :=
  ∃ stamp, e.cloud.header.stamp.rclcpp = .ok stamp ∧ expired p look e = false ∧
    ready p look frame e.cloud stamp = false

/-- Why a cloud can meet its fate in a call, when a pass takes look `k` at it. The
clouds `younger` wait behind it. -/
def Explains (call : Call) (frame : String) (younger : Fates) (e : PendingCloud) (k : ℕ) : Fate → Prop
  | .waits => ∀ x ∈ younger, x.2 ≠ .buffered
  | .buffered => ∃ look, call = .processPending look ∧ Usable p (look k) frame e
  | .expired => ∃ look, call = .processPending look ∧ expired p (look k) e = true
  | .superseded => (∃ look, call = .processPending look ∧ Untransformable p (look k) frame e) ∧
      ∃ x ∈ younger, x.2 = .buffered
  | .untransformable => p.waitTimeout ≤ 0 ∧
      ∃ look, call = .processPending look ∧ Untransformable p (look k) frame e
  | .overflowed => (∃ source cloud now, call = .enqueue source cloud now) ∧
      maxPendingClouds ≤ younger.length + 1
  | .discarded => call = .reset ∨ call = .deactivate

def Explained (call : Call) (frame : String) : Fates → Prop
  | [] => True
  | ((e, k), fate) :: younger => Explains p call frame younger e k fate ∧ Explained call frame younger

/-- In a call from `s` to `s'` every cloud in the queue of source `i` meets an
explained fate, and the queue has no other clouds to lose, to hand over or to keep. -/
def Accounted (call : Call) (i : ℕ) (s s' : State) (trace : List Occurrence) : Prop :=
  ∃ fates : Fates, fates.map Prod.fst = (queue i s).zipIdx (firstLook i s) ∧
    queue i s' = having .waits fates ++ arrivals i trace ∧
    buffered i trace = having .buffered fates ∧
    Explained p call (sensorFrame i s) fates

variable {p} {call : Call} {frame : String}

/-- What is used comes before what stays. -/
theorem Explained.sublist {fates : Fates} (h : Explained p call frame fates) :
    (having .buffered fates ++ having .waits fates).Sublist ((fates.map Prod.fst).map Prod.fst) := by
  induction fates with
  | nil => exact List.Sublist.refl []
  | cons x fates ih =>
    obtain ⟨⟨e, k⟩, fate⟩ := x
    have hrest := ih h.2
    rw [List.map_cons, List.map_cons]
    cases fate with
    | buffered =>
      rw [having_cons_self, having_cons_of_ne (by simp)]
      exact hrest.cons_cons e
    | waits =>
      have hnone : having .buffered fates = [] := having_eq_nil h.1
      rw [hnone, List.nil_append] at hrest
      rw [having_cons_self, having_cons_of_ne (by simp), hnone]
      exact hrest.cons_cons e
    | _ =>
      rw [having_cons_of_ne (by simp), having_cons_of_ne (by simp)]
      exact hrest.cons e

theorem Accounted.servesInOrder {i : ℕ} {s s' : State} {trace : List Occurrence}
    (h : Accounted p call i s s' trace) :
    ServesInOrder (queue i) (Occurrence.bufferedAt? i) (Occurrence.arrivedAt? i) s s' trace := by
  obtain ⟨fates, hqueue, hleft, hserved, hexp⟩ := h
  change (buffered i trace ++ queue i s').Sublist (queue i s ++ arrivals i trace)
  have hclouds : (fates.map Prod.fst).map Prod.fst = queue i s := by rw [hqueue, List.zipIdx_map_fst]
  rw [hserved, hleft, ← hclouds, ← List.append_assoc]
  exact hexp.sublist.append_right _

theorem explained_waits (clouds : List (PendingCloud × ℕ)) :
    Explained p call frame (clouds.map (·, .waits)) := by
  induction clouds with
  | nil => trivial
  | cons e clouds ih =>
    refine ⟨?_, ih⟩
    intro x hx
    obtain ⟨e', -, rfl⟩ := List.mem_map.mp hx
    simp

/-- A cloud that is not used may leave from between others. -/
theorem Explained.insert {passed fates : Fates} {e : PendingCloud} {k : ℕ} {fate : Fate}
    (h : Explained p call frame (passed ++ fates)) (hne : fate ≠ .buffered)
    (he : Explains p call frame fates e k fate) :
    Explained p call frame (passed ++ ((e, k), fate) :: fates) := by
  induction passed with
  | nil => exact ⟨he, h⟩
  | cons x passed ih =>
    obtain ⟨⟨e', k'⟩, fate'⟩ := x
    obtain ⟨hx, hrest⟩ := h
    refine ⟨?_, ih hrest⟩
    have hmem : ∀ y ∈ passed ++ fates, y ∈ passed ++ ((e, k), fate) :: fates := by
      intro y hy
      simp only [List.mem_append, List.mem_cons] at hy ⊢
      tauto
    cases fate' with
    | waits =>
      intro y (hy : y ∈ passed ++ ((e, k), fate) :: fates)
      simp only [List.mem_append, List.mem_cons] at hy
      obtain hy | rfl | hy := hy
      · exact hx y (List.mem_append_left _ hy)
      · exact hne
      · exact hx y (List.mem_append_right _ hy)
    | superseded =>
      obtain ⟨hun, y, hy, hused⟩ := hx
      exact ⟨hun, y, hmem y hy, hused⟩
    | overflowed =>
      refine ⟨hx.1, hx.2.trans ?_⟩
      show (passed ++ fates).length + 1 ≤ (passed ++ ((e, k), fate) :: fates).length + 1
      simp only [List.length_append, List.length_cons]
      omega
    | _ => exact hx

/-- A cloud that is used takes along the ones passed over before. -/
theorem Explained.supersede {waiting : List (PendingCloud × ℕ)} {fates : Fates} {e : PendingCloud × ℕ}
    (h : Explained p call frame ((e, .buffered) :: fates))
    (hw : ∀ x ∈ waiting, ∃ look, call = .processPending look ∧ Untransformable p (look x.2) frame x.1) :
    Explained p call frame (waiting.map (·, .superseded) ++ (e, .buffered) :: fates) := by
  induction waiting with
  | nil => exact h
  | cons x waiting ih =>
    obtain ⟨hx, hrest⟩ := List.forall_mem_cons.mp hw
    exact ⟨⟨hx, (e, .buffered), by simp, rfl⟩, ih hrest⟩

/-! ### A pass -/

variable (p) in
/-- The clouds in `waiting` have already been looked at in this pass. -/
theorem scan_explained (look : ℕ → Look) (source : ℕ) (frame : String) (k : ℕ)
    (waiting : List (PendingCloud × ℕ)) (rest : List PendingCloud)
    (hw : ∀ x ∈ waiting, Untransformable p (look x.2) frame x.1) :
    ∃ passed fates : Fates, passed.map Prod.fst = waiting ∧ fates.map Prod.fst = rest.zipIdx k ∧
      (scan p look source frame k (waiting.map Prod.fst) rest).pending = having .waits (passed ++ fates) ∧
      buffered source (scan p look source frame k (waiting.map Prod.fst) rest).trace =
        having .buffered (passed ++ fates) ∧
      Explained p (.processPending look) frame (passed ++ fates) := by
  induction rest generalizing k waiting with
  | nil =>
    refine ⟨waiting.map (·, .waits), [], fst_map_fate _ _, rfl, ?_, ?_, ?_⟩
    · rw [List.append_nil, having_map_self]
      rfl
    · rw [List.append_nil, having_map_of_ne (by simp)]
      rfl
    · rw [List.append_nil]
      exact explained_waits waiting
  | cons pending rest ih =>
    unfold scan
    split
    · next hold =>
      obtain ⟨passed, fates, rfl, hfates, hleft, hserved, hexp⟩ := ih (k + 1) waiting hw
      refine ⟨passed, ((pending, k), .expired) :: fates, rfl, ?_, ?_, ?_, ?_⟩
      · rw [List.map_cons, hfates, List.zipIdx_cons]
      · rw [hleft, having_append, having_append, having_cons_of_ne (by simp)]
      · rw [hserved, having_append, having_append, having_cons_of_ne (by simp)]
      · exact hexp.insert (by simp) ⟨look, rfl, hold⟩
    next hold =>
    have hyoung : expired p (look k) pending = false := by simpa using hold
    split
    · refine ⟨waiting.map (·, .waits), ((pending :: rest).zipIdx k).map (·, .waits),
        fst_map_fate _ _, fst_map_fate _ _, ?_, ?_, ?_⟩
      · rw [having_append, having_map_self, having_map_self, List.zipIdx_map_fst]
      · rw [having_append, having_map_of_ne (by simp), having_map_of_ne (by simp)]
        rfl
      · rw [← List.map_append]
        exact explained_waits _
    next stamp hstamp =>
    split
    · next hready =>
      obtain ⟨passed, fates, hpassed, hfates, hleft, hserved, hexp⟩ := ih (k + 1) [] (by simp)
      obtain rfl := List.map_eq_nil_iff.mp hpassed
      refine ⟨waiting.map (·, .superseded), ((pending, k), .buffered) :: fates, fst_map_fate _ _,
        ?_, ?_, ?_, ?_⟩
      · rw [List.map_cons, hfates, List.zipIdx_cons]
      · rw [having_append, having_map_of_ne (by simp), having_cons_of_ne (by simp)]
        exact hleft
      · rw [having_append, having_map_of_ne (by simp), having_cons_self, buffered_cons_self]
        exact congrArg (pending :: ·) hserved
      · refine Explained.supersede ⟨⟨look, rfl, stamp, hstamp, hyoung, hready⟩, hexp⟩ ?_
        exact fun x hx => ⟨look, rfl, hw x hx⟩
    next hready =>
    have hun : Untransformable p (look k) frame pending :=
      ⟨stamp, hstamp, hyoung, by simpa using hready⟩
    split
    · next hnow =>
      obtain ⟨passed, fates, rfl, hfates, hleft, hserved, hexp⟩ := ih (k + 1) waiting hw
      refine ⟨passed, ((pending, k), .untransformable) :: fates, rfl, ?_, ?_, ?_, ?_⟩
      · rw [List.map_cons, hfates, List.zipIdx_cons]
      · rw [hleft, having_append, having_append, having_cons_of_ne (by simp)]
      · rw [hserved, having_append, having_append, having_cons_of_ne (by simp)]
      · exact hexp.insert (by simp) ⟨hnow, look, rfl, hun⟩
    · have hw' : ∀ x ∈ waiting ++ [(pending, k)], Untransformable p (look x.2) frame x.1 := by
        intro x hx
        obtain hx | hx := List.mem_append.mp hx
        · exact hw x hx
        · rw [List.mem_singleton.mp hx]
          exact hun
      obtain ⟨passed, fates, hpassed, hfates, hleft, hserved, hexp⟩ := ih (k + 1) _ hw'
      rw [List.map_append] at hleft hserved
      obtain ⟨passed, last, rfl, rfl, hlast⟩ := List.map_eq_append_iff.mp hpassed
      refine ⟨passed, last ++ fates, rfl, ?_, ?_, ?_, ?_⟩
      · rw [List.map_append, hlast, hfates]
        rfl
      · rw [← List.append_assoc]
        exact hleft
      · rw [← List.append_assoc]
        exact hserved
      · rw [← List.append_assoc]
        exact hexp

variable (p) in
/-- Every cloud takes one look. -/
theorem scan_looks (look : ℕ → Look) (source : ℕ) (frame : String) (k : ℕ)
    (waiting rest : List PendingCloud) {k' : ℕ}
    (h : (scan p look source frame k waiting rest).looks = some k') : k' = k + rest.length := by
  induction rest generalizing k waiting with
  | nil =>
    obtain rfl := Option.some.inj h
    rfl
  | cons pending rest ih =>
    have hnext : k + (pending :: rest).length = k + 1 + rest.length := by
      rw [List.length_cons]
      omega
    rw [hnext]
    unfold scan at h
    split at h
    · exact ih _ _ h
    split at h
    · simp at h
    split at h
    · exact ih _ _ h
    split at h
    · exact ih _ _ h
    · exact ih _ _ h

variable (p) in
/-- A pass over one queue only hands over clouds of its source, none of them too old. -/
theorem mem_scan_trace (look : ℕ → Look) (source : ℕ) (frame : String) (k : ℕ)
    (waiting rest : List PendingCloud) :
    ∀ o ∈ (scan p look source frame k waiting rest).trace, (∃ exception, o = .threw exception) ∨
      ∃ e k, o = .buffered source e (look k).now ∧ expired p (look k) e = false := by
  induction rest generalizing k waiting with
  | nil => simp [scan]
  | cons pending rest ih =>
    unfold scan
    split
    · exact ih _ _
    next hyoung =>
    split
    · next exception _ =>
      intro o ho
      exact .inl ⟨exception, List.mem_singleton.mp ho⟩
    split
    · intro o ho
      obtain rfl | ho := List.mem_cons.mp ho
      · exact .inr ⟨pending, k, rfl, by simpa using hyoung⟩
      · exact ih _ _ o ho
    split
    · exact ih _ _
    · exact ih _ _

variable (p) in
theorem mem_scanSources_trace (look : ℕ → Look) (k i : ℕ) (sources : List Source) :
    ∀ o ∈ (scanSources p look k i sources).2, (∃ exception, o = .threw exception) ∨
      ∃ j e k, i ≤ j ∧ o = .buffered j e (look k).now ∧ expired p (look k) e = false := by
  induction sources generalizing k i with
  | nil => simp [scanSources]
  | cons source rest ih =>
    have hscan := mem_scan_trace p look i source.sensorFrame k [] source.pending
    unfold scanSources
    dsimp only
    split
    · intro o ho
      obtain h | ⟨e, k, rfl, hyoung⟩ := hscan o ho
      · exact .inl h
      · exact .inr ⟨i, e, k, le_rfl, rfl, hyoung⟩
    · intro o ho
      obtain ho | ho := List.mem_append.mp ho
      · obtain h | ⟨e, k, rfl, hyoung⟩ := hscan o ho
        · exact .inl h
        · exact .inr ⟨i, e, k, le_rfl, rfl, hyoung⟩
      · obtain h | ⟨j, e, k, hle, rfl, hyoung⟩ := ih _ _ o ho
        · exact .inl h
        · exact .inr ⟨j, e, k, by omega, rfl, hyoung⟩

theorem buffered_eq_nil {i : ℕ} {trace : List Occurrence}
    (h : ∀ o ∈ trace, ∀ e now, o ≠ .buffered i e now) : buffered i trace = [] := by
  refine List.filterMap_eq_nil_iff.mpr fun o ho => ?_
  cases o with
  | buffered source e now =>
    have hne : source ≠ i := by
      rintro rfl
      exact h _ ho e now rfl
    simp [Occurrence.bufferedAt?, hne]
  | _ => rfl

theorem arrivals_eq_nil {i : ℕ} {trace : List Occurrence}
    (h : ∀ o ∈ trace, ∀ source e, o ≠ .arrived source e) : arrivals i trace = [] := by
  refine List.filterMap_eq_nil_iff.mpr fun o ho => ?_
  cases o with
  | arrived source e => exact absurd rfl (h _ ho source e)
  | _ => rfl

variable (p) in
/-- Every queue of the sources is accounted for, also behind an exception. -/
theorem scanSources_explained (look : ℕ → Look) (k i j : ℕ) (sources : List Source) :
    ∃ fates : Fates,
      fates.map Prod.fst = (sources[j]?.elim [] Source.pending).zipIdx
        (k + ((sources.take j).map (·.pending.length)).sum) ∧
      (scanSources p look k i sources).1[j]?.elim [] Source.pending = having .waits fates ∧
      buffered (i + j) (scanSources p look k i sources).2 = having .buffered fates ∧
      Explained p (.processPending look) (sources[j]?.elim "" Source.sensorFrame) fates := by
  induction sources generalizing k i j with
  | nil => exact ⟨[], by simp, by simp [scanSources], by simp [scanSources], trivial⟩
  | cons source rest ih =>
    obtain ⟨passed, fates, hpassed, hfates, hleft, hserved, hexp⟩ :=
      scan_explained p look i source.sensorFrame k [] source.pending (by simp)
    obtain rfl := List.map_eq_nil_iff.mp hpassed
    have hother : ∀ m, m ≠ i →
        buffered m (scan p look i source.sensorFrame k [] source.pending).trace = [] := by
      intro m hm
      refine buffered_eq_nil fun o ho e now => ?_
      obtain ⟨exception, rfl⟩ | ⟨e', k, rfl, -⟩ :=
        mem_scan_trace p look i source.sensorFrame k [] source.pending o ho
      · simp
      · simp [hm.symm]
    unfold scanSources
    dsimp only
    split
    · -- the exception leaves the queues behind it alone
      cases j with
      | zero => exact ⟨fates, by simpa using hfates, by simpa using hleft, by simpa using hserved, by simpa using hexp⟩
      | succ j =>
        refine ⟨((rest[j]?.elim [] Source.pending).zipIdx
          (k + (((source :: rest).take (j + 1)).map (·.pending.length)).sum)).map (·, .waits), ?_, ?_, ?_, ?_⟩
        · rw [fst_map_fate]
          simp
        · rw [having_map_self, List.zipIdx_map_fst]
          simp
        · rw [having_map_of_ne (by simp), hother _ (by omega)]
        · exact explained_waits _
    · next k' hk =>
      obtain rfl := scan_looks p look i source.sensorFrame k [] source.pending hk
      cases j with
      | zero =>
        refine ⟨fates, by simpa using hfates, by simpa using hleft, ?_, by simpa using hexp⟩
        have hlater : buffered i
            (scanSources p look (k + source.pending.length) (i + 1) rest).2 = [] := by
          refine buffered_eq_nil fun o ho e now => ?_
          obtain ⟨exception, rfl⟩ | ⟨m, e', k, hle, rfl, -⟩ :=
            mem_scanSources_trace p look _ (i + 1) rest o ho
          · simp
          · have hne : m ≠ i := by omega
            simp [hne]
        rw [Nat.add_zero, buffered_append, hlater, List.append_nil]
        exact hserved
      | succ j =>
        obtain ⟨fates', hfates', hleft', hserved', hexp'⟩ := ih (k + source.pending.length) (i + 1) j
        refine ⟨fates', ?_, by simpa using hleft', ?_, by simpa using hexp'⟩
        · simpa [Nat.add_assoc] using hfates'
        · rw [buffered_append, hother _ (by omega), List.nil_append, ← hserved']
          congr 1
          omega

/-! ### Calls -/

theorem accounted_of_waiting {i : ℕ} {s s' : State} (h : queue i s' = queue i s) :
    Accounted p call i s s' [] := by
  refine ⟨((queue i s).zipIdx (firstLook i s)).map (·, .waits), fst_map_fate _ _, ?_, ?_, explained_waits _⟩
  · rw [h, having_map_self, List.zipIdx_map_fst, arrivals_nil, List.append_nil]
  · rw [having_map_of_ne (by simp), buffered_nil]

theorem queue_clearPending (i : ℕ) (sources : List Source) (active : Bool) :
    queue i ⟨clearPending sources, active⟩ = [] := by
  simp only [queue, clearPending, List.getElem?_map]
  cases sources[i]? <;> rfl

theorem accounted_of_discarded {i : ℕ} {s s' : State} (hcall : call = .reset ∨ call = .deactivate)
    (h : queue i s' = []) : Accounted p call i s s' [] := by
  refine ⟨((queue i s).zipIdx (firstLook i s)).map (·, .discarded), fst_map_fate _ _, ?_, ?_, ?_⟩
  · rw [h, having_map_of_ne (by simp), arrivals_nil, List.append_nil]
  · rw [having_map_of_ne (by simp), buffered_nil]
  · induction (queue i s).zipIdx (firstLook i s) with
    | nil => trivial
    | cons e rest ih => exact ⟨hcall, ih⟩

theorem queue_set (i source : ℕ) (sources : List Source) (state : Source) (active : Bool)
    (h : source < sources.length) : queue i ⟨sources.set source state, active⟩ =
      if source = i then state.pending else queue i ⟨sources, active⟩ := by
  unfold queue
  by_cases hi : source = i
  · subst hi
    simp [h]
  · simp [hi]

/-- The oldest cloud makes room in a full queue. -/
theorem enqueue_accounted (source : ℕ) (cloud : PointCloud2) (now : TimePoint) (i : ℕ) (s : State) :
    Accounted p (.enqueue source cloud now) i s (enqueue source cloud now s).1
      (enqueue source cloud now s).2 := by
  unfold enqueue
  split
  · exact accounted_of_waiting rfl
  split
  · exact accounted_of_waiting rfl
  split
  · obtain ⟨fates, h⟩ : Accounted p (.enqueue source cloud now) i s s [] := accounted_of_waiting rfl
    exact ⟨fates, h⟩
  next state hstate =>
  have hlt : source < s.sources.length := (List.getElem?_eq_some_iff.mp hstate).1
  by_cases hi : source = i
  · subst hi
    have hqueue : queue source s = state.pending := by simp [queue, hstate]
    have harrived : arrivals source [.arrived source ⟨cloud, now⟩] = [⟨cloud, now⟩] := by
      simp [arrivals, Occurrence.arrivedAt?]
    unfold Accounted
    rw [queue_set _ _ _ _ _ hlt, if_pos rfl, harrived, hqueue]
    split
    · next hfull =>
      obtain ⟨oldest, rest, hpend⟩ : ∃ oldest rest, state.pending = oldest :: rest := by
        cases hp : state.pending with
        | nil => simp [hp, maxPendingClouds] at hfull
        | cons oldest rest => exact ⟨oldest, rest, rfl⟩
      refine ⟨((oldest, firstLook source s), .overflowed) ::
        (rest.zipIdx (firstLook source s + 1)).map (·, .waits), ?_, ?_, ?_, ?_, explained_waits _⟩
      · rw [List.map_cons, fst_map_fate, hpend, List.zipIdx_cons]
      · rw [having_cons_of_ne (by simp), having_map_self, List.zipIdx_map_fst, hpend, List.tail_cons]
      · rw [having_cons_of_ne (by simp), having_map_of_ne (by simp)]
        rfl
      · refine ⟨⟨source, cloud, now, rfl⟩, ?_⟩
        simpa [hpend] using hfull
    · refine ⟨(state.pending.zipIdx (firstLook source s)).map (·, .waits), fst_map_fate _ _, ?_, ?_,
        explained_waits _⟩
      · rw [having_map_self, List.zipIdx_map_fst]
      · rw [having_map_of_ne (by simp)]
        rfl
  · refine ⟨((queue i s).zipIdx (firstLook i s)).map (·, .waits), fst_map_fate _ _, ?_, ?_,
      explained_waits _⟩
    · rw [queue_set _ _ _ _ _ hlt, if_neg hi, having_map_self, List.zipIdx_map_fst]
      simp [arrivals, Occurrence.arrivedAt?, hi]
    · rw [having_map_of_ne (by simp)]
      rfl

theorem processPending_accounted (look : ℕ → Look) (i : ℕ) (s : State) :
    Accounted p (.processPending look) i s (processPending p look s).1
      (processPending p look s).2 := by
  unfold processPending
  split
  · exact accounted_of_waiting rfl
  · obtain ⟨fates, hfates, hleft, hserved, hexp⟩ := scanSources_explained p look 0 0 i s.sources
    have harrived : arrivals i (scanSources p look 0 0 s.sources).2 = [] := by
      refine arrivals_eq_nil fun o ho source e => ?_
      obtain ⟨exception, rfl⟩ | ⟨j, e', k, -, rfl, -⟩ := mem_scanSources_trace p look 0 0 s.sources o ho
      · simp
      · simp
    rw [Nat.zero_add] at hserved hfates
    refine ⟨fates, hfates, ?_, hserved, hexp⟩
    dsimp only
    rw [harrived, List.append_nil]
    exact hleft

theorem step_accounted (call : Call) (i : ℕ) (s : State) :
    Accounted p call i s (step p call s).1 (step p call s).2 := by
  cases call with
  | activate => exact accounted_of_waiting rfl
  | deactivate => exact accounted_of_discarded (.inr rfl) (queue_clearPending i _ _)
  | reset => exact accounted_of_discarded (.inl rfl) (queue_clearPending i _ _)
  | enqueue source cloud now => exact enqueue_accounted source cloud now i s
  | processPending look => exact processPending_accounted look i s

/-- A cloud that TF can be asked about. -/
def Stamped (e : PendingCloud) : Prop :=
  e.cloud.header.frameId ≠ "" ∧ ¬(e.cloud.header.stamp.sec = 0 ∧ e.cloud.header.stamp.nanosec = 0)

/-- What a run may do: queue clouds with a frame and a stamp, and use clouds in time. -/
def Lawful (p : Params K) : Occurrence → Prop
  | .arrived _ e => Stamped e
  | .buffered _ e now => 0 < p.waitTimeout → elapsed now e.received < p.waitTimeout
  | .threw _ => True

theorem lawful_of_not_expired {look : Look} {e : PendingCloud} (h : expired p look e = false)
    (source : ℕ) : Lawful p (.buffered source e look.now) := by
  intro hpos
  simpa [expired, hpos] using h

theorem step_lawful (call : Call) (s : State) : ∀ o ∈ (step p call s).2, Lawful p o := by
  cases call with
  | activate | deactivate | reset => exact List.forall_mem_nil _
  | enqueue source cloud now =>
    unfold step enqueue
    dsimp only
    split
    · exact List.forall_mem_nil _
    next hstamp =>
    split
    · exact List.forall_mem_nil _
    split
    · exact List.forall_mem_singleton.mpr trivial
    · exact List.forall_mem_singleton.mpr (not_or.mp hstamp)
  | processPending look =>
    unfold step processPending
    dsimp only
    split
    · exact List.forall_mem_nil _
    · intro o ho
      obtain ⟨exception, rfl⟩ | ⟨j, e, k, -, rfl, hyoung⟩ := mem_scanSources_trace p look 0 0 s.sources o ho
      · trivial
      · exact lawful_of_not_expired hyoung j

theorem step_arrivals (call : Call) (i : ℕ) (s : State) :
    (arrivals i (step p call s).2).Sublist (enqueued i [call]) := by
  cases call with
  | activate | deactivate | reset => exact List.Sublist.refl []
  | enqueue source cloud now =>
    unfold step enqueue
    dsimp only
    split
    · exact List.nil_sublist _
    split
    · exact List.nil_sublist _
    split
    · exact List.nil_sublist _
    · have heq : arrivals i [.arrived source ⟨cloud, now⟩] = enqueued i [.enqueue source cloud now] := by
        by_cases hi : source = i
        · simp [arrivals, enqueued, Occurrence.arrivedAt?, hi]
        · simp [arrivals, enqueued, Occurrence.arrivedAt?, hi]
      rw [heq]
  | processPending look =>
    unfold step processPending
    dsimp only
    split
    · exact List.nil_sublist _
    · rw [arrivals_eq_nil]
      · exact List.nil_sublist _
      intro o ho source e
      obtain ⟨exception, rfl⟩ | ⟨j, e', k, -, rfl, -⟩ := mem_scanSources_trace p look 0 0 s.sources o ho
      · simp
      · simp

/-- Room is made before a cloud is added. -/
theorem enqueue_bounded (source : ℕ) (cloud : PointCloud2) (now : TimePoint) (s : State)
    (h : ∀ i, (queue i s).length ≤ maxPendingClouds) (i : ℕ) :
    (queue i (enqueue source cloud now s).1).length ≤ maxPendingClouds := by
  unfold enqueue
  split
  · exact h i
  split
  · exact h i
  split
  · exact h i
  next state hstate =>
  have hlt : source < s.sources.length := (List.getElem?_eq_some_iff.mp hstate).1
  have hold := h source
  rw [queue_set _ _ _ _ _ hlt]
  split
  · simp only [queue, hstate, Option.elim_some] at hold
    rw [List.length_append, List.length_singleton]
    split
    · rw [List.length_tail]
      have hpos : 0 < maxPendingClouds := by decide
      omega
    · omega
  · exact h i

theorem step_bounded (call : Call) (s : State) (h : ∀ i, (queue i s).length ≤ maxPendingClouds)
    (i : ℕ) : (queue i (step p call s).1).length ≤ maxPendingClouds := by
  have hkept := (step_accounted (p := p) call i s).servesInOrder.length_le
  cases call with
  | activate => exact h i
  | deactivate | reset =>
    have hnone := queue_clearPending i s.sources
    simp [step, deactivate, reset, hnone]
  | enqueue source cloud now => exact enqueue_bounded source cloud now s h i
  | processPending look =>
    have hnone : arrivals i (step p (.processPending look) s).2 = [] :=
      List.eq_nil_of_sublist_nil (step_arrivals (.processPending look) i s)
    change (buffered i _ ++ queue i _).length ≤ (queue i s ++ arrivals i _).length at hkept
    rw [hnone, List.append_nil, List.length_append] at hkept
    have := h i
    omega

/-! ### Runs -/

theorem calls_lawful (calls : List Call) (s : State) :
    ∀ o ∈ (Traced.run (step p) s calls).2, Lawful p o := by
  induction calls using List.reverseRecOn with
  | nil => exact List.forall_mem_nil _
  | append_singleton calls call ih =>
    intro o ho
    rw [run_snoc] at ho
    obtain ho | ho := List.mem_append.mp ho
    · exact ih o ho
    · exact step_lawful call _ o ho

theorem calls_arrivals (calls : List Call) (i : ℕ) (s : State) :
    (arrivals i (Traced.run (step p) s calls).2).Sublist (enqueued i calls) := by
  induction calls using List.reverseRecOn with
  | nil => exact List.Sublist.refl []
  | append_singleton calls call ih =>
    have hlast := step_arrivals (p := p) call i (Traced.run (step p) s calls).1
    rw [run_snoc, Reaction.andThen_snd, arrivals_append, enqueued, List.filterMap_append]
    exact ih.append hlast

theorem calls_bounded (calls : List Call) (s : State)
    (h : ∀ i, (queue i s).length ≤ maxPendingClouds) (i : ℕ) :
    (queue i (Traced.run (step p) s calls).1).length ≤ maxPendingClouds := by
  induction calls using List.reverseRecOn generalizing i with
  | nil => exact h i
  | append_singleton calls call ih =>
    rw [run_snoc]
    exact step_bounded call _ ih i

/-- From an empty queue, the clouds used are a subsequence of the clouds received. -/
theorem calls_buffered (calls : List Call) (i : ℕ) (s : State) (h : queue i s = []) :
    (buffered i (Traced.run (step p) s calls).2).Sublist (arrivals i (Traced.run (step p) s calls).2) := by
  have horder : ServesInOrder (queue i) (Occurrence.bufferedAt? i) (Occurrence.arrivedAt? i) s
      (Traced.run (step p) s calls).1 (Traced.run (step p) s calls).2 :=
    run_servesInOrder (fun call s => (step_accounted call i s).servesInOrder) calls s
  rw [ServesInOrder, h, List.nil_append] at horder
  exact (List.sublist_append_left _ _).trans horder

theorem queue_initial (i : ℕ) (sensorFrames : List String) : queue i (.initial sensorFrames) = [] := by
  simp only [queue, State.initial, List.getElem?_map]
  cases sensorFrames[i]? <;> rfl

/-- What the queues guarantee in the run of `calls`. -/
structure Kept (p : Params K) (sensorFrames : List String) (calls : List Call) : Prop where
  /-- The clouds used are a subsequence of the clouds received. -/
  inOrder : ∀ i, (buffered i (run p sensorFrames calls).2).Sublist (enqueued i calls)
  /-- A cloud is used before its time is over. -/
  inTime : ∀ i e now, .buffered i e now ∈ (run p sensorFrames calls).2 → 0 < p.waitTimeout →
    elapsed now e.received < p.waitTimeout
  /-- After a reset or a deactivation only clouds received later are used. -/
  afterStop : ∀ before stop after, calls = before ++ stop :: after →
    stop = .reset ∨ stop = .deactivate →
    ∃ later, (run p sensorFrames calls).2 = (run p sensorFrames (before ++ [stop])).2 ++ later ∧
      ∀ i, (buffered i later).Sublist (enqueued i after)
  stamped : ∀ i, ∀ e ∈ buffered i (run p sensorFrames calls).2, Stamped e
  bounded : ∀ i, (queue i (run p sensorFrames calls).1).length ≤ maxPendingClouds
  /-- In the next call, whichever it is, every queued cloud meets an explained fate. -/
  accounted : ∀ call i, Accounted p call i (run p sensorFrames calls).1
    (step p call (run p sensorFrames calls).1).1 (step p call (run p sensorFrames calls).1).2

theorem queue_stop {stop : Call} (h : stop = .reset ∨ stop = .deactivate) (i : ℕ) (s : State) :
    queue i (step p stop s).1 = [] := by
  obtain rfl | rfl := h
  · exact queue_clearPending i _ _
  · exact queue_clearPending i _ _

/-- The obstacle clouds of every run are used in order, in time and at most once,
and none is lost without a reason. -/
theorem run_kept (p : Params K) (sensorFrames : List String) (calls : List Call) :
    Kept p sensorFrames calls where
  inOrder := fun i => (calls_buffered calls i _ (queue_initial i sensorFrames)).trans
    (calls_arrivals calls i _)
  inTime := fun i e now ho => calls_lawful calls _ _ ho
  afterStop := by
    intro before stop after hcalls hstop
    refine ⟨(Traced.run (step p) (run p sensorFrames (before ++ [stop])).1 after).2, ?_, fun i => ?_⟩
    · have hsplit : calls = (before ++ [stop]) ++ after := by simp [hcalls]
      rw [hsplit, run, run_append]
      rfl
    · have hnone : queue i (run p sensorFrames (before ++ [stop])).1 = [] := by
        rw [run, run_snoc]
        exact queue_stop hstop i _
      exact (calls_buffered after i _ hnone).trans (calls_arrivals after i _)
  stamped := by
    intro i e he
    have harr := (calls_buffered calls i _ (queue_initial i sensorFrames)).subset he
    obtain ⟨o, ho, hoe⟩ := List.mem_filterMap.mp harr
    have hlawful := calls_lawful calls _ o ho
    cases o with
    | arrived source e' =>
      simp only [Occurrence.arrivedAt?, Option.ite_none_right_eq_some, Option.some.injEq] at hoe
      obtain ⟨-, rfl⟩ := hoe
      exact hlawful
    | _ => simp [Occurrence.arrivedAt?] at hoe
  bounded := fun i => calls_bounded calls _ (fun i => by simp [queue_initial]) i
  accounted := fun call i => step_accounted call i _

/-- A cloud without transforms does not replace a newer observation later on. -/
example :
    let cloud : String → PointCloud2 := fun frame => ⟨⟨⟨1, 0⟩, frame⟩, 0, 0, [], false, 0, 0, [], true⟩
    let look : List String → ℕ → Look := fun known _ =>
      ⟨100, fun _ frame _ => frame ∈ known, fun _ frame _ => frame ∈ known⟩
    let calls : List Call :=
      [.activate, .enqueue 0 (cloud "missing_frame") 0, .enqueue 0 (cloud "cloud_frame") 1,
        .processPending (look ["cloud_frame", "sensor"]),
        .processPending (look ["cloud_frame", "missing_frame", "sensor"])]
    (run (⟨"odom", 15 / 100, by norm_num⟩ : Params ℚ) ["sensor"] calls).2 =
      [.arrived 0 ⟨cloud "missing_frame", 0⟩, .arrived 0 ⟨cloud "cloud_frame", 1⟩,
        .buffered 0 ⟨cloud "cloud_frame", 1⟩ 100] := by decide +kernel

end X2Navigation.PointCloudObstacleLayer
