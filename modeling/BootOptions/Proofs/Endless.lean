/-
  Boot options — the memory stores that a scan never gets to the end of.

  A memory store finds its place by the cursor alone.  A variable without a name
  sends a walk back to the first one, and one that has the vendor and the name of
  an earlier variable sends it back to that: the walk goes round in circles, unless
  a name that is too long ends it first.  A fault ends any walk.

  * `Ends`, `Endless`: what becomes of a scan with any number of calls.
  * `run_endless`: a walk goes on for ever if something is kept by its steps that
    lets it go on.
  * `Misleading before v`: behind the variables `before`, `v` sends a walk back;
    `Passable`: no variable does, as far as names are not too long.
  * `Circles`: a walk does not get behind a misleading variable; `Circles.step`.
  * `scan_termination`: which scans of a memory store end, and which never do.
-/
import BootOptions.Proofs.Faults

namespace BootOptions

/-! ## Endless walks -/

section
variable {σ : Type} [VariableStore σ]

/-- With calls enough, a scan of the store has a result, and it is always the same. -/
def Ends (cfg : ScanConfig) (store : σ) : Prop :=
  ∃ n r, ∀ fuel, n ≤ fuel → (scan cfg fuel store).result = some r

/-- A scan of the store uses up any number of calls, and each answer lets it go on. -/
def Endless (cfg : ScanConfig) (store : σ) : Prop :=
  ∀ fuel, (scan cfg fuel store).result = none ∧ (scan cfg fuel store).exchanges.length = fuel ∧
    ∀ e ∈ (scan cfg fuel store).exchanges, e.Continues cfg

theorem Ends.not_endless {cfg : ScanConfig} {store : σ} (h : Ends cfg store) :
    ¬ Endless cfg store := by
  obtain ⟨n, r, hr⟩ := h
  intro he
  have hn := hr n (Nat.le_refl n)
  rw [(he n).1] at hn
  exact nomatch hn

/-- A walk goes on for ever if each state with the property `I` lets it go on to
    another one. -/
theorem Walk.run_endless {cfg : ScanConfig} {I : Walk → σ → Prop}
    (hI : ∀ w s, I w s → ∃ e ns w' s', Steps cfg w s [e] ns w' s' ∧ I w' s') {w : Walk} {s : σ}
    (h : I w s) (fuel : Nat) : (run cfg fuel w s).result = none := by
  induction fuel generalizing w s with
  | zero => rfl
  | succ fuel ih =>
    obtain ⟨e, ns, w', s', hs, h'⟩ := hI w s h
    have hr := hs.run fuel
    rw [List.length_singleton, Nat.add_comm] at hr
    rw [hr]
    exact ih h'

end

/-! ## Misleading variables -/

/-- Behind the variables `before`, the variable sends a walk back: it has no name,
    or one of them has its vendor and its name. -/
def Misleading (before : List Variable) (v : Variable) : Prop :=
  v.name.stem = [] ∨ ∃ u ∈ before, u.guid = v.guid ∧ u.name.stem = v.name.stem

/-- No misleading variable stands in front of the first one that is too long. -/
def Passable (cfg : ScanConfig) (vs : List Variable) : Prop :=
  ∀ before v after, vs = before ++ v :: after →
    (∀ u ∈ before ++ [v], u.stored.length ≤ cfg.limit) → ¬ Misleading before v

theorem wellNamed_concat_iff {before : List Variable} {v : Variable} :
    WellNamed (before ++ [v]) ↔ WellNamed before ∧ ¬ Misleading before v := by
  constructor
  · intro h
    refine ⟨h.append_left, ?_⟩
    rintro (hn | ⟨u, hu, he⟩)
    · exact h.named v (by simp) hn
    · exact (List.pairwise_append.1 h.distinct).2.2 u hu v (by simp) he
  · rintro ⟨h, hv⟩
    rw [Misleading, not_or] at hv
    refine ⟨?_, List.pairwise_append.2 ⟨h.distinct, List.pairwise_singleton _ _, ?_⟩⟩
    · exact List.forall_mem_append.2 ⟨h.named, List.forall_mem_singleton.2 hv.1⟩
    · exact fun u hu => List.forall_mem_singleton.2 fun he => hv.2 ⟨u, hu, he⟩

theorem Passable.wellNamed {cfg : ScanConfig} {before after : List Variable}
    (h : Passable cfg (before ++ after)) (hl : ∀ u ∈ before, u.stored.length ≤ cfg.limit) :
    WellNamed before := by
  induction before using List.reverseRecOn generalizing after with
  | nil => exact ⟨by simp, .nil⟩
  | append_singleton before v ih =>
    rw [List.append_assoc] at h
    refine wellNamed_concat_iff.2 ⟨ih h fun u hu => hl u (by simp [hu]), ?_⟩
    exact h before v after rfl hl

namespace MemoryStore

variable {m : MemoryStore} {cfg : ScanConfig} {before after : List Variable} {v : Variable}

theorem ends_of_passable (hm : m.Reliable) (h : Passable cfg m.contents) : Ends cfg m := by
  rcases hfind : m.contents.find? (fun v => cfg.limit < v.stored.length) with _ | v
  · have hlim : ∀ v ∈ m.contents, v.stored.length ≤ cfg.limit := by
      simpa using List.find?_eq_none.1 hfind
    have hall : Passable cfg (m.contents ++ []) := by rwa [List.append_nil]
    have hsound : m.Sound := ⟨hm.available, hm.faultless, hall.wellNamed hlim⟩
    refine ⟨m.contents.length + cfg.growths m.contents + 1,
      .ok (m.contents.filterMap Variable.option?), ?_⟩
    intro fuel hf
    obtain ⟨es, e, ns, hscan, -⟩ := scan_fits hsound hlim hf
    rw [hscan]
  · obtain ⟨hl, before, after, hv, hbefore⟩ := List.find?_eq_some_iff_append.1 hfind
    have hlim : ∀ u ∈ before, u.stored.length ≤ cfg.limit := by simpa using hbefore
    rw [hv] at h
    refine ⟨before.length + cfg.growths before + 1,
      .error (.nameTooLong (2 * v.stored.length)), ?_⟩
    intro fuel hf
    exact hm.scan_tooLong (h.wellNamed hlim) hv hlim (by simpa using hl) hf

/-- The cursor on a variable is followed by the next one at most, and by an
    earlier one or the variable itself if that is misleading. -/
theorem after?_le_of_isAt (hm : m.contents = before ++ v :: after) {c : Cursor}
    (hc : v.isAt c = true) :
    ∃ i ≤ before.length + 1, m.after? c = some i ∧ (Misleading before v → i ≤ before.length) := by
  by_cases hn : c.name = []
  · exact ⟨0, Nat.zero_le _, after?_of_empty hn, fun _ => Nat.zero_le _⟩
  have hne : c.name.isEmpty = false := List.isEmpty_eq_false_iff.2 hn
  obtain ⟨hg, hname⟩ := Variable.isAt_iff.1 hc
  rcases hfind : before.findIdx? (·.isAt c) with _ | j
  -- the cursor is on the variable itself, which is not misleading
  · refine ⟨before.length + 1, Nat.le_refl _, ?_, ?_⟩
    · rw [after?, hne, hm, List.findIdx?_append, hfind, List.findIdx?_cons, hc]
      simp
    · rintro (h | ⟨u, hu, hug, hun⟩)
      · exact absurd (hname.symm.trans h) hn
      · have hat := List.findIdx?_eq_none_iff.1 hfind u hu
        rw [Variable.isAt_iff.2 ⟨hug.trans hg, hun.trans hname⟩] at hat
        cases hat
  · have hj : j < before.length := (List.findIdx?_eq_some_iff_getElem.1 hfind).1
    refine ⟨j + 1, by omega, ?_, fun _ => hj⟩
    rw [after?, hne, hm, List.findIdx?_append, hfind]
    rfl

/-- The walk has not got behind the misleading variable `v`. -/
structure Circles (before after : List Variable) (v : Variable) (w : Walk) (m : MemoryStore) :
    Prop where
  reliable : m.Reliable
  contents : m.contents = before ++ v :: after
  misleading : Misleading before v
  place : ∃ i ≤ before.length, m.after? w.cursor = some i

theorem Circles.asked {w w' : Walk} (h : Circles before after v w m) (n k : Nat)
    (hp : ∃ i ≤ before.length, m.after? w'.cursor = some i) :
    Circles before after v w' (m.asked n k) :=
  ⟨h.reliable.asked n k, h.contents, h.misleading, hp⟩

/-- The variable at a place up to that of `v`, between those around it. -/
theorem exists_at (before : List Variable) (v : Variable) {i : Nat} (hi : i ≤ before.length) :
    ∃ front u back, before ++ [v] = front ++ u :: back ∧ front.length = i ∧
      (i = before.length → front = before ∧ u = v) := by
  rcases Nat.lt_or_eq_of_le hi with h | rfl
  · have hs : before.take i ++ before[i] :: before.drop (i + 1) = before := by simp
    exact ⟨before.take i, before[i], before.drop (i + 1) ++ [v],
      by rw [← List.cons_append, ← List.append_assoc, hs], List.length_take_of_le hi,
      fun he => absurd he h.ne⟩
  · exact ⟨before, v, [], rfl, rfl, fun _ => ⟨rfl, rfl⟩⟩

/-- A walk in front of a misleading variable goes on, and stays in front of it. -/
theorem Circles.step {w : Walk} (h : Circles before after v w m)
    (hlim : ∀ u ∈ before ++ [v], u.stored.length ≤ cfg.limit) :
    ∃ e ns w' m', Walk.Steps cfg w m [e] ns w' m' ∧ Circles before after v w' m' := by
  obtain ⟨i, hi, hc⟩ := h.place
  obtain ⟨front, u, back, hsplit, rfl, hv⟩ := exists_at before v hi
  have hu : m.contents = front ++ u :: (back ++ after) := by
    rw [h.contents, List.append_cons, hsplit, List.append_assoc, List.cons_append]
  have hmem : u ∈ before ++ [v] := by simp [hsplit]
  by_cases hl : w.cursor.buffer.length < u.stored.length
  · obtain ⟨e, ns, hs, -⟩ := Walk.steps_short h.reliable hu hc hl (hlim u hmem)
    have hplace : m.after? (w.cursor.resize u.stored.length) = some front.length :=
      (after?_resize ((Units.length_stem_le _).trans hl.le)).trans hc
    exact ⟨e, ns, _, _, hs, h.asked 1 1 ⟨_, hi, hplace⟩⟩
  · have hl' := Nat.le_of_not_lt hl
    obtain ⟨e, ns, hs, -⟩ := Walk.steps_fits h.reliable hu hc cfg hl'
    obtain ⟨j, hj, hplace, hmis⟩ := after?_le_of_isAt hu (Walk.isAt_on hl')
    refine ⟨e, ns, _, _, hs, h.asked 1 0 ⟨j, ?_, hplace⟩⟩
    rcases Nat.lt_or_ge front.length before.length with hlt | hge
    · omega
    · obtain ⟨rfl, rfl⟩ := hv (by omega)
      exact hmis h.misleading

theorem endless_of_misleading (hm : m.Reliable) (h : ¬ Passable cfg m.contents) : Endless cfg m := by
  simp only [Passable, not_forall, Classical.not_not] at h
  obtain ⟨before, v, after, hv, hlim, hmis⟩ := h
  have hstart : Circles before after v ⟨cfg.start, 0, []⟩ m :=
    ⟨hm, hv, hmis, 0, Nat.zero_le _, after?_start⟩
  intro fuel
  have hnone : (scan cfg fuel m).result = none := by
    rw [scan_of_available hm.available]
    exact Walk.run_endless (fun _ _ hc => hc.step hlim) hstart fuel
  exact ⟨hnone, scan_cut hm.available hnone⟩

/-- A fault ends a scan at its step, if nothing ends it before. -/
theorem scan_failing (hm : m.Reliable) {f : Fault} (hf : m.steps ≤ f.step)
    (hs : f.status ≠ .success) (cfg : ScanConfig) :
    ∃ r es, es.length ≤ f.step + 1 - m.steps ∧ ∀ fuel, f.step + 1 - m.steps ≤ fuel →
      (scan cfg fuel (m.failing f)).result = some r ∧
      (scan cfg fuel (m.failing f)).exchanges = es := by
  have ha : VariableStore.isAvailable (m.failing f) = true := hm.available
  simp only [scan_of_available ha]
  rcases Walk.fault_cases cfg ⟨cfg.start, 0, []⟩ hm hf with
    ⟨r, es, ns, m', hl, hr⟩ | ⟨es, ns, w', m', hl, hsteps, hsteps', hnext⟩
  · refine ⟨r, es, by omega, ?_⟩
    intro fuel hfuel
    rw [(hr fuel (by omega)).2]
    exact ⟨rfl, rfl⟩
  · obtain ⟨r, n, hd⟩ := Walk.step_refused_done hs (hsteps.length_le cfg.length_start_le)
    refine ⟨r, es ++ [⟨w'.cursor.request, w'.cursor.request.refused f.status⟩], ?_, ?_⟩
    · rw [List.length_append, List.length_singleton]
      omega
    · intro fuel hfuel
      rw [hsteps'.run_done hnext hd (by omega)]
      exact ⟨rfl, rfl⟩

/-- **Which scans end.**  Without a fault, a scan of a store ends iff no misleading
    variable stands in front of the first one that is too long, and otherwise
    goes on for ever; a fault ends it with the call it is for, whatever the
    variables are. -/
theorem scan_termination (ha : m.available = true) (cfg : ScanConfig) :
    (m.fault = none → (Ends cfg m ↔ Passable cfg m.contents) ∧
      (¬ Passable cfg m.contents → Endless cfg m)) ∧
    ∀ f, m.fault = some f → f.status ≠ .success → m.steps ≤ f.step →
      ∃ r es, es.length ≤ f.step + 1 - m.steps ∧ ∀ fuel, f.step + 1 - m.steps ≤ fuel →
        (scan cfg fuel m).result = some r ∧ (scan cfg fuel m).exchanges = es := by
  constructor
  · intro hf
    have hm : m.Reliable := ⟨ha, hf⟩
    refine ⟨⟨?_, ends_of_passable hm⟩, endless_of_misleading hm⟩
    intro he
    by_contra hp
    exact he.not_endless (endless_of_misleading hm hp)
  · intro f hf hs hsteps
    have hm : m = { m with fault := none }.failing f := by
      rw [failing, ← hf]
    rw [hm]
    exact scan_failing (m := { m with fault := none }) ⟨ha, rfl⟩ hsteps hs cfg

/-- A store with the same variable twice, and a longer one between. -/
def circle : MemoryStore where
  contents := [.ofText .global "Boot0001", .ofText .global "BootOrder", .ofText .global "Boot0001"]

/-- The same store, two questions counted and a fault for the eighth. -/
def circleBroken : MemoryStore := { circle with fault := some ⟨7, .notFound⟩, steps := 2 }

/-- The longer name decides whether a scan ends; a fault ends it in any case. -/
theorem scan_termination_circle :
    Endless ⟨4, 10, true⟩ circle ∧ Ends ⟨4, 9, true⟩ circle ∧
    ∃ r es, es.length ≤ 6 ∧ ∀ fuel, 6 ≤ fuel →
      (scan ⟨4, 10, true⟩ fuel circleBroken).result = some r ∧
      (scan ⟨4, 10, true⟩ fuel circleBroken).exchanges = es := by
  refine ⟨?_, ?_, ?_⟩
  · refine ((scan_termination (m := circle) rfl ⟨4, 10, true⟩).1 rfl).2 fun hp => ?_
    exact hp [_, _] _ [] rfl (by decide) (by unfold Misleading; decide)
  · refine ((scan_termination (m := circle) rfl ⟨4, 9, true⟩).1 rfl).1.2 ?_
    intro before v after hv hlim
    rcases before with _ | ⟨u, _ | ⟨u', before⟩⟩
    · cases hv
      unfold Misleading
      decide
    -- behind the first variable, the second one is too long
    · cases hv
      exact absurd (hlim (.ofText .global "BootOrder") (by simp)) (by decide)
    · obtain rfl : u' = .ofText .global "BootOrder" := (List.cons.inj (List.cons.inj hv).2).1.symm
      exact absurd (hlim (.ofText .global "BootOrder") (by simp)) (by decide)
  · exact (scan_termination (m := circleBroken) rfl ⟨4, 10, true⟩).2 ⟨7, .notFound⟩ rfl (by decide)
      (by decide)

end MemoryStore

end BootOptions
