/-
  Boot options — what reaches the firmware, and what it can touch.

  The firmware takes the caller's word for the room in the buffer.  So the store
  in front of it cuts the stated size down to the true one, and keeps back the
  calls that have no buffer at all.

  * `Reaches f r`: the question `r` is passed on; `next_of_reaches` and
    `next_of_not_reaches` are the two ways of answering it.
  * `room r`: the units of the buffer that the firmware is told of; `inside e`:
    the exchange `e` as the firmware has it, which `inside_next` shows to be one.
  * `Sheltered f e`: behind its room, the buffer comes back as it was, and what is
    not passed on is refused.
  * `answered_passed`: the firmware answers what is passed on, and nothing else.
  * `calls_inside`: in any calls, the firmware is told of no more room than there
    is, and touches nothing outside.
-/
import BootOptions.Proofs.FirmwareScan

namespace BootOptions.FirmwareStore

variable {φ : Type} {f f' : FirmwareStore φ} {t : ServiceTable φ} {r : Request}

/-! ## One call -/

/-- The question is passed on to the firmware: there is a table of runtime
    services, and a buffer that is not empty. -/
def Reaches (f : FirmwareStore φ) (r : Request) : Prop :=
  (∃ t ∈ f.table, t.signature = ServiceTable.runtimeSignature) ∧ r.buffer ≠ []

instance (f : FirmwareStore φ) (r : Request) : Decidable (f.Reaches r) :=
  inferInstanceAs (Decidable (_ ∧ _))

/-- The number of units that the firmware may use: half the stated size, but no
    more than there are. -/
def room (r : Request) : Nat := min (r.size / 2) r.buffer.length

/-- The exchange as the firmware has it: with the size cut down to that of the
    buffer, and the units that it covers. -/
def inside (e : Exchange) : Exchange where
  request := ⟨⟨e.request.buffer.take (room e.request), e.request.guid⟩,
    min e.request.size (2 * e.request.buffer.length)⟩
  answer := ⟨⟨e.answer.buffer.take (room e.request), e.answer.guid⟩, e.answer.status, e.answer.size⟩

/-- The units behind the room for the firmware are kept, and so is everything if
    the question is not passed on. -/
structure Sheltered (f : FirmwareStore φ) (e : Exchange) : Prop where
  kept : ∀ i, min (e.request.size / 2) e.request.buffer.length ≤ i →
    e.answer.buffer[i]? = e.request.buffer[i]?
  refused : ¬ f.Reaches e.request → e.answer = e.request.refused .unsupported

theorem toldSize_div_two (r : Request) : toldSize r / 2 = room r := by
  simp only [toldSize, Cursor.byteSize, room]
  omega

theorem windowed_eq (r : Request) : windowed r =
    ⟨⟨r.buffer.take (room r), r.guid⟩, min r.size (2 * r.buffer.length)⟩ := by
  rw [windowed, toldSize_div_two]
  rfl

theorem services_of_reaches (ht : f.table = some t) (hr : f.Reaches r) : f.services = some t := by
  obtain ⟨⟨t', ht', hsig⟩, -⟩ := hr
  cases ht.symm.trans ht'
  simp [services, ht, hsig]

section
variable [NameIterator φ]

theorem length_answer_windowed (s : φ) (r : Request) :
    (NameIterator.next s (windowed r)).1.buffer.length = room r := by
  rw [NameIterator.length_next, length_windowed, toldSize_div_two]

theorem next_of_reaches (ht : f.table = some t) (hr : f.Reaches r) :
    NameIterator.next f r = (embedded r (NameIterator.next t.firmware (windowed r)).1,
      ⟨some { t with firmware := (NameIterator.next t.firmware (windowed r)).2 }⟩) := by
  have hne : r.buffer.isEmpty = false := List.isEmpty_eq_false_iff.2 hr.2
  show answer f r = _
  simp only [answer, services_of_reaches ht hr, hne, Bool.false_eq_true, if_false]

theorem next_of_not_reaches (hr : ¬ f.Reaches r) :
    NameIterator.next f r = (r.refused .unsupported, f) := by
  show answer f r = _
  rcases hs : f.services with _ | t
  · simp only [answer, hs]
  · obtain ⟨ht, hsig⟩ := Option.filter_eq_some_iff.1 hs
    have he : r.buffer = [] := by
      by_contra hne
      exact hr ⟨⟨t, ht, by simpa using hsig⟩, hne⟩
    simp [answer, hs, he]

/-- A call changes neither the table nor its signature. -/
theorem reaches_next (f : FirmwareStore φ) (r q : Request) :
    (NameIterator.next f r).2.Reaches q ↔ f.Reaches q := by
  by_cases hr : f.Reaches r
  · obtain ⟨⟨t, ht, -⟩, -⟩ := id hr
    have ht : f.table = some t := ht
    rw [next_of_reaches ht hr]
    simp [Reaches, ht]
  · rw [next_of_not_reaches hr]

/-- What comes back is what the firmware has made of its part of the buffer. -/
theorem inside_next (ht : f.table = some t) (hr : f.Reaches r) :
    inside ⟨r, (NameIterator.next f r).1⟩ =
      ⟨windowed r, (NameIterator.next t.firmware (windowed r)).1⟩ := by
  have hl := length_answer_windowed t.firmware r
  rw [next_of_reaches ht hr, inside, windowed_eq]
  simp only [embedded, ← windowed_eq]
  rw [List.take_append_of_le_length hl.ge, List.take_of_length_le hl.le]

theorem sheltered_next (f : FirmwareStore φ) (r : Request) :
    f.Sheltered ⟨r, (NameIterator.next f r).1⟩ := by
  by_cases hr : f.Reaches r
  · refine ⟨?_, fun h => absurd hr h⟩
    obtain ⟨⟨t, ht, -⟩, -⟩ := id hr
    have hl := length_answer_windowed t.firmware r
    intro i hi
    have hi : room r ≤ i := hi
    rw [next_of_reaches ht hr]
    show (_ ++ r.buffer.drop (toldSize r / 2))[i]? = r.buffer[i]?
    rw [List.getElem?_append_right (hl.le.trans hi), hl, toldSize_div_two, List.getElem?_drop,
      Nat.add_sub_cancel' hi]
  · rw [next_of_not_reaches hr]
    exact ⟨fun _ _ => rfl, fun _ => rfl⟩

end

/-! ## Many calls -/

/-- The exchanges among `es` that take place with the firmware, as it has them. -/
def passed (f : FirmwareStore φ) (es : List Exchange) : List Exchange :=
  (es.filter fun e => f.Reaches e.request).map inside

theorem passed_cons_of_reaches {e : Exchange} (es : List Exchange) (h : f.Reaches e.request) :
    f.passed (e :: es) = inside e :: f.passed es := by
  simp [passed, h]

theorem passed_cons_of_not_reaches {e : Exchange} (es : List Exchange)
    (h : ¬ f.Reaches e.request) : f.passed (e :: es) = f.passed es := by
  simp [passed, h]

section
variable [NameIterator φ] {es : List Exchange}

theorem passed_next (f : FirmwareStore φ) (r : Request) (es : List Exchange) :
    (NameIterator.next f r).2.passed es = f.passed es := by
  simp only [passed, reaches_next]

theorem sheltered_of_answered (h : Answered f es f') : ∀ e ∈ es, f.Sheltered e := by
  induction h with
  | nil => simp
  | @cons f f' r es _ ih =>
    refine List.forall_mem_cons.2 ⟨sheltered_next f r, ?_⟩
    intro e he
    exact ⟨(ih e he).kept, fun hr => (ih e he).refused (mt (reaches_next f r _).1 hr)⟩

/-- Without a table nothing happens. -/
theorem eq_of_answered (h : Answered f es f') (ht : f.table = none) : f' = f := by
  induction h with
  | nil => rfl
  | @cons f f' r es _ ih =>
    have hr : ¬ f.Reaches r := by simp [Reaches, ht]
    rw [next_of_not_reaches hr] at ih
    exact ih ht

/-- **The firmware gives the answers** to what is passed on, and to nothing else. -/
theorem answered_passed (h : Answered f es f') (ht : f.table = some t) :
    ∃ firmware, f' = ⟨some { t with firmware }⟩ ∧ Answered t.firmware (f.passed es) firmware := by
  induction h generalizing t with
  | @nil f =>
    obtain ⟨_⟩ := f
    cases ht
    exact ⟨t.firmware, rfl, .nil⟩
  | @cons f f' r es _ ih =>
    rw [passed_next] at ih
    by_cases hr : f.Reaches r
    · have hn := congrArg Prod.snd (next_of_reaches ht hr)
      obtain ⟨firmware, rfl, hf⟩ := ih (congrArg FirmwareStore.table hn)
      rw [passed_cons_of_reaches _ hr, inside_next ht hr]
      exact ⟨firmware, rfl, .cons hf⟩
    · rw [next_of_not_reaches hr] at ih
      rw [passed_cons_of_not_reaches _ hr]
      exact ih ht

end

/-- **The firmware is told of no more room than there is.**  In any calls, with any
    sizes and buffers, a firmware under observation is asked the questions that are
    passed on, each with the size cut down to that of its buffer, and what it answers
    there comes back; the units outside are kept.  What is not passed on is refused,
    and the firmware is left as it was. -/
theorem calls_inside [NameIterator φ] {f f' : FirmwareStore (Recorded φ)} {es : List Exchange}
    (h : Answered f es f') :
    (∀ e ∈ es, f.Sheltered e) ∧
    (f.table = none → f' = f) ∧
    ∀ t, f.table = some t → ∃ firmware, f' = ⟨some { t with firmware }⟩ ∧
      Answered t.firmware (f.passed es) firmware ∧
      firmware.requests = t.firmware.requests ++ (f.passed es).map Exchange.request := by
  refine ⟨sheltered_of_answered h, eq_of_answered h, ?_⟩
  intro t ht
  obtain ⟨firmware, hf', ha⟩ := answered_passed h ht
  exact ⟨firmware, hf', ha, Recorded.requests_eq ha⟩

/-- A firmware that writes more than there is room for, and then warns. -/
def greedy : Replay where
  steps := [⟨.success, some [7, 8, 9], none, some .global⟩, ⟨⟨2⟩, none, some 3, none⟩]

/-- An empty buffer, a size that covers half of a unit, and one beyond the buffer;
    then the same with a table of another kind. -/
theorem calls_inside_oddSizes :
    (∃ es f', Answered (ofFirmware (Recorded.mk greedy [])) es f' ∧
      es.map (·.answer.buffer) = [[], [7, 8, 3, 4], [5, 6]] ∧
      ∃ firmware : Recorded Replay, f' = ofFirmware firmware ∧ firmware.requests.map (·.size) = [5, 4] ∧
        ∀ e ∈ es, (ofFirmware (Recorded.mk greedy [])).Sheltered e) ∧
    ∃ f', Answered (⟨some ⟨0, greedy, []⟩⟩ : FirmwareStore (Recorded Replay))
        [⟨⟨⟨[5, 6], .zero⟩, 4⟩, ⟨⟨[5, 6], .zero⟩, .unsupported, 4⟩⟩] f' ∧
      ∃ firmware : Recorded Replay, f' = ⟨some ⟨0, firmware⟩⟩ ∧ firmware.requests = [] := by
  constructor
  · have h : Answered (ofFirmware (Recorded.mk greedy [])) _ _ :=
      .cons (q := ⟨⟨[], .zero⟩, 1000⟩) (.cons (q := ⟨⟨[1, 2, 3, 4], .zero⟩, 5⟩)
        (.cons (q := ⟨⟨[5, 6], .zero⟩, 0xFFFFFFFFFFFFFFFF⟩) .nil))
    obtain ⟨hs, -, hp⟩ := calls_inside h
    obtain ⟨firmware, hf', -, hreq⟩ := hp _ rfl
    exact ⟨_, _, h, by decide, firmware, hf', by rw [hreq]; decide, hs⟩
  · have h : Answered (⟨some ⟨0, greedy, []⟩⟩ : FirmwareStore (Recorded Replay)) _ _ :=
      .cons (q := ⟨⟨[5, 6], .zero⟩, 4⟩) .nil
    obtain ⟨firmware, hf', -, hreq⟩ := (calls_inside h).2.2 _ rfl
    exact ⟨_, h, firmware, hf', hreq⟩

end BootOptions.FirmwareStore
