/-
  Boot options — walking a memory store by hand.

  A client may state any size, give its buffer any size that leaves the name on
  it whole, and add to the store on the way.  The store keeps no place for it:
  it finds the client by its cursor at every question.

  * `Client.Tour as c`: the client has come to `c`, having got the answers `as`.
  * `Answer.Tells a v`: the answer hands out the variable `v`.
  * `Behind vs c j`: the cursor stands behind the first `j` of the variables.
  * `Due c j size a`: what must be answered to a client behind `j` variables.
  * `Reply`: the ways in which it is answered, which are due (`Reply.due`).
  * `tour_in_order`: on every tour, the variables told are the first ones of the
    store, in order and each once, and the next answer is the due one.
-/
import Mathlib.Data.List.Forall2
import BootOptions.Client
import BootOptions.Proofs.MemoryScan

namespace BootOptions

/-- The answer hands out the variable: its GUID, its stored name at the front of
    the buffer, and the size of that. -/
structure Answer.Tells (a : Answer) (v : Variable) : Prop where
  status : a.status = .success
  guid : a.guid = v.guid
  name : a.name = v.name.stem
  stored : v.stored <+: a.buffer
  size : a.size = v.byteSize

/-! ## Places in a store -/

/-- The cursor stands behind the first `j` of the variables: on the last of
    them, or on none. -/
inductive Behind (vs : List Variable) (c : Cursor) : Nat → Prop
  | none : c.name = [] → Behind vs c 0
  | on {before after : List Variable} {v : Variable} :
      vs = before ++ v :: after → v.isAt c = true → Behind vs c (before.length + 1)

namespace Behind

variable {vs : List Variable} {c : Cursor} {j : Nat}

theorem le_length (h : Behind vs c j) : j ≤ vs.length := by
  cases h with
  | none => exact Nat.zero_le _
  | on hvs => simp [hvs]

theorem after? {m : MemoryStore} (h : Behind m.contents c j) (hw : WellNamed m.contents) :
    m.after? c = some j := by
  cases h with
  | none hn => exact MemoryStore.after?_of_empty hn
  | on hvs hat => exact MemoryStore.after?_of_isAt hw hvs hat

theorem resize (h : Behind vs c j) {n : Nat} (hn : c.name.length ≤ n) : Behind vs (c.resize n) j := by
  cases h with
  | none h0 => exact .none ((Units.stem_resize hn).trans h0)
  | on hvs hat => exact .on hvs ((Variable.isAt_resize _ hn).trans hat)

theorem append (h : Behind vs c j) (v : Variable) : Behind (vs ++ [v]) c j := by
  cases h with
  | none h0 => exact .none h0
  | on hvs hat => exact .on (by rw [hvs, List.append_assoc]; rfl) hat

theorem of_tells {a : Answer} {v : Variable} (hv : vs[j]? = some v) (h : a.Tells v) :
    Behind vs a.toCursor (j + 1) := by
  obtain ⟨hj, rfl⟩ := List.getElem?_eq_some_iff.1 hv
  have hvs : vs = vs.take j ++ vs[j] :: vs.drop (j + 1) := by simp
  have hb : Behind vs a.toCursor ((vs.take j).length + 1) :=
    .on hvs (Variable.isAt_iff.2 ⟨h.guid.symm, h.name.symm⟩)
  rwa [List.length_take_of_le hj.le] at hb

end Behind

namespace Client

/-! ## Moves -/

/-- What may happen between a client and its memory store, and the answers that
    this gives: a question with any size, a buffer of another size that leaves
    the name whole, a rewind, a variable that can be told from the others. -/
inductive Move (c : Client MemoryStore) : List Answer → Client MemoryStore → Prop
  | ask (size : Nat) : Move c [(c.next (some size)).1] (c.next (some size)).2
  | resize {n : Nat} : c.cursor.name.length ≤ n → Move c [] (c.resize n)
  | rewind : Move c [] { c with store := c.store.rewind }
  | add {v : Variable} : WellNamed (c.store.contents ++ [v]) →
      Move c [] { c with store := c.store.add v }

/-- By any number of moves the client has come from `c₀` to `c`, and has got the
    answers `as`. -/
inductive Tour (c₀ : Client MemoryStore) : List Answer → Client MemoryStore → Prop
  | start : Tour c₀ [] c₀
  | move {as bs : List Answer} {c c' : Client MemoryStore} :
      Tour c₀ as c → Move c bs c' → Tour c₀ (as ++ bs) c'

/-! ## Answers -/

/-- The client has no room for the variable: it states too few bytes, or its
    buffer has too few units. -/
def TooSmall (c : Client MemoryStore) (size : Nat) (v : Variable) : Prop :=
  size < 2 * v.stored.length ∨ c.cursor.buffer.length < v.stored.length

/-- What must be answered to a client behind `j` variables that states `size`
    bytes: the next variable, or why it cannot be told, with the cursor left
    alone. -/
structure Due (c : Client MemoryStore) (j size : Nat) (a : Answer) : Prop where
  exhausted : a.status = .notFound ↔ j = c.store.contents.length
  short : a.status = .bufferTooSmall ↔ ∃ v, c.store.contents[j]? = some v ∧ c.TooSmall size v
  told : a.status = .success ↔ ∃ v, c.store.contents[j]? = some v ∧ ¬ c.TooSmall size v
  known : a.status ≠ .invalidParameter
  tells : ∀ v, c.store.contents[j]? = some v → a.status = .success → a.Tells v
  required : ∀ v, c.store.contents[j]? = some v → a.status = .bufferTooSmall → a.size = v.byteSize
  kept : a.status ≠ .success → a.toCursor = c.cursor

variable {c c' : Client MemoryStore} {as bs : List Answer} {j size : Nat}

/-- The ways in which a client behind `j` variables is answered. -/
inductive Reply (c : Client MemoryStore) (j size : Nat) (a : Answer) : Prop
  | exhausted : c.store.contents[j]? = none → a = ⟨c.cursor, .notFound, size⟩ → Reply c j size a
  | short {v : Variable} : c.store.contents[j]? = some v → c.TooSmall size v →
      a = ⟨c.cursor, .bufferTooSmall, v.byteSize⟩ → Reply c j size a
  | told {v : Variable} : c.store.contents[j]? = some v → ¬ c.TooSmall size v → a.Tells v →
      Reply c j size a

theorem next_reply (hs : c.store.Sound) (hb : Behind c.store.contents c.cursor j) (size : Nat) :
    Reply c j size (c.next (some size)).1 ∧ ∃ k l, (c.next (some size)).2 =
      ⟨c.store.asked k l, (c.next (some size)).1.toCursor⟩ := by
  have ha : c.store.after? (Request.mk c.cursor size).toCursor = some j := hb.after? hs.wellNamed
  have hn : c.next (some size) = ((c.store.genuine ⟨c.cursor, size⟩).1,
      ⟨(c.store.genuine ⟨c.cursor, size⟩).2, (c.store.genuine ⟨c.cursor, size⟩).1.toCursor⟩) := by
    rw [← hs.next_eq]; rfl
  rw [hn]
  rcases hv : c.store.contents[j]? with _ | v
  · rw [MemoryStore.genuine_end ha hv]
    exact ⟨.exhausted hv rfl, 1, 0, rfl⟩
  by_cases hsmall : c.TooSmall size v
  · rw [MemoryStore.genuine_short ha hv hsmall]
    exact ⟨.short hv hsmall rfl, 1, 1, rfl⟩
  · obtain ⟨hsize, hl⟩ := not_or.1 hsmall
    rw [Nat.not_lt] at hsize hl
    rw [MemoryStore.genuine_fits ha hv hsize hl]
    refine ⟨.told hv hsmall ⟨rfl, rfl, v.stem_overwrite hl, ?_, rfl⟩, 1, 0, rfl⟩
    show v.stored <+: c.cursor.buffer.overwrite v.stored
    rw [Units.overwrite, List.take_of_length_le hl]
    exact List.prefix_append _ _

theorem Reply.due {a : Answer} (h : Reply c j size a) (hj : j ≤ c.store.contents.length) :
    Due c j size a := by
  cases h with
  | exhausted hv ha =>
    have hs : a.status = .notFound := by rw [ha]
    exact {
      exhausted := iff_of_true hs (Nat.le_antisymm hj (List.getElem?_eq_none_iff.1 hv))
      short := by simp +decide [hs, hv]
      told := by simp +decide [hs, hv]
      known := by simp +decide [hs]
      tells := by simp [hv]
      required := by simp [hv]
      kept := fun _ => by rw [ha] }
  | short hv hsmall ha =>
    have hs : a.status = .bufferTooSmall := by rw [ha]
    have hlt := (List.getElem?_eq_some_iff.1 hv).1
    exact {
      exhausted := iff_of_false (by simp +decide [hs]) hlt.ne
      short := iff_of_true hs ⟨_, hv, hsmall⟩
      told := by simp +decide [hs, hv, hsmall]
      known := by simp +decide [hs]
      tells := by simp +decide [hs]
      required := fun u hu _ => by
        cases hv.symm.trans hu
        rw [ha]
      kept := fun _ => by rw [ha] }
  | told hv hroom ht =>
    have hs := ht.status
    have hlt := (List.getElem?_eq_some_iff.1 hv).1
    exact {
      exhausted := iff_of_false (by simp +decide [hs]) hlt.ne
      short := by simp +decide [hs, hv, hroom]
      told := iff_of_true hs ⟨_, hv, hroom⟩
      known := by simp +decide [hs]
      tells := fun u hu _ => by
        cases hv.symm.trans hu
        exact ht
      required := by simp +decide [hs]
      kept := fun hne => absurd hs hne }

/-! ## Tours -/

/-- The answers that told a variable. -/
def told (as : List Answer) : List Answer := as.filter (·.status = .success)

theorem told_append (as bs : List Answer) : told (as ++ bs) = told as ++ told bs :=
  List.filter_append ..

/-- The client stands behind the first `j` variables of a sound store, and these
    are what it has been told. -/
structure Seen (c : Client MemoryStore) (as : List Answer) (j : Nat) : Prop where
  sound : c.store.Sound
  behind : Behind c.store.contents c.cursor j
  told : List.Forall₂ Answer.Tells (told as) (c.store.contents.take j)

/-- An answer takes the client on exactly when it tells a variable. -/
theorem Seen.ask (h : Seen c as j) (size : Nat) :
    ∃ j', Seen (c.next (some size)).2 (as ++ [(c.next (some size)).1]) j' := by
  obtain ⟨hr, k, l, hc⟩ := next_reply h.sound h.behind size
  rw [hc]
  generalize (c.next (some size)).1 = a at hr
  cases hr with
  | exhausted _ ha | short _ _ ha =>
    have hs : Client.told [a] = [] := by rw [ha]; rfl
    refine ⟨j, h.sound.asked k l, ?_, ?_⟩
    · rw [ha]; exact h.behind
    · rw [told_append, hs, List.append_nil]; exact h.told
  | @told v hv _ ht =>
    have hs : Client.told [a] = [a] := by simp [Client.told, ht.status]
    have htake : c.store.contents.take (j + 1) = c.store.contents.take j ++ [v] := by
      rw [List.take_add_one, hv]; rfl
    refine ⟨j + 1, h.sound.asked k l, .of_tells hv ht, ?_⟩
    show List.Forall₂ _ _ (c.store.contents.take (j + 1))
    rw [told_append, hs, htake]
    exact List.rel_append h.told (.cons ht .nil)

theorem Seen.move (h : Seen c as j) (hm : Move c bs c') : ∃ j', Seen c' (as ++ bs) j' := by
  cases hm with
  | ask size => exact h.ask size
  | resize hn => exact ⟨j, h.sound, h.behind.resize hn, by rw [List.append_nil]; exact h.told⟩
  | rewind =>
    exact ⟨j, ⟨h.sound.available, h.sound.faultless, h.sound.wellNamed⟩, h.behind,
      by rw [List.append_nil]; exact h.told⟩
  | @add v hw =>
    refine ⟨j, ⟨h.sound.available, h.sound.faultless, hw⟩, h.behind.append v, ?_⟩
    show List.Forall₂ _ _ ((c.store.contents ++ [v]).take j)
    rw [List.append_nil, List.take_append_of_le_length h.behind.le_length]
    exact h.told

theorem Tour.seen {c₀ : Client MemoryStore} (ht : Tour c₀ as c) (h : Seen c₀ [] 0) :
    ∃ j, Seen c as j := by
  induction ht with
  | start => exact ⟨0, h⟩
  | move _ hm ih =>
    obtain ⟨j, hj⟩ := ih
    exact hj.move hm

/-- **Every variable once, in order.**  On any tour of a sound store, a client
    has been told the first variables of the store, each by one answer, and the
    next answer is the one due behind them. -/
theorem tour_in_order {m : MemoryStore} (hm : m.Sound) {n : Nat} (ht : Tour (.start m n) as c) :
    ∃ j ≤ c.store.contents.length, WellNamed c.store.contents ∧
      List.Forall₂ Answer.Tells (told as) (c.store.contents.take j) ∧
      ∀ size, Due c j size (c.next (some size)).1 := by
  obtain ⟨j, h⟩ := ht.seen ⟨hm, .none (Cursor.name_start n), .nil⟩
  refine ⟨j, h.behind.le_length, h.sound.wellNamed, h.told, ?_⟩
  intro size
  exact (next_reply h.sound h.behind size).1.due h.behind.le_length

/-- A store with one name in two namespaces, and a zero inside one of the names. -/
def namesakes : MemoryStore where
  contents := [.ofText .zero "Boot0001", ⟨.global, Utf16.encode "Boot0001".toList ++ [0, 0x41]⟩]

/-- From a buffer without any room, through sizes too small and too large, to one
    that has lost the zero behind its name, with a variable added on the way. -/
theorem tour_in_order_namesakes : ∃ as c, Tour (.start namesakes 0) as c ∧
    c.cursor = ⟨Utf16.encode "Boot0001".toList, .zero⟩ ∧ (told as).length = 1 ∧
    ∃ j ≤ c.store.contents.length, WellNamed c.store.contents ∧
      List.Forall₂ Answer.Tells (told as) (c.store.contents.take j) ∧
      ∀ size, Due c j size (c.next (some size)).1 := by
  have hm : namesakes.Sound := ⟨rfl, rfl, by decide, by decide⟩
  have h₁ : Tour (.start namesakes 0) _ _ := .move (.move .start (.ask 5)) (.resize (n := 9) (by decide))
  have h₂ := Tour.move (.move h₁ (.ask 17)) (.ask 40)
  have h₃ := Tour.move (.move h₂ (.resize (n := 8) (by decide))) .rewind
  have h₄ := Tour.move h₃ (.add (v := .ofText .global "BootOrder") ⟨by decide, by decide⟩)
  exact ⟨_, _, h₄, by decide, by decide, tour_in_order hm h₄⟩

end Client

end BootOptions
