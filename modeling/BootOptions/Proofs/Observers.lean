/-
  Boot options — what the log cannot change.

  The trace flag is asked in the middle of a scan, and the filter wherever something is
  logged.  All else that a program does is the same with any of them.

  * `untraced cfg`: the settings without the trace; settings that differ in the trace
    alone have the same untraced ones.
  * `step_untraced`, `run_untraced`: without the trace, a walk does what it does with it,
    and tells of no boot option (`quiet`); so do scans and refreshes.
  * `Program`, `Stage`: a session with the stores it scans, and one stage of its run, a
    filter with a job for one of its holders; `unlogged` takes filter and trace out.
  * `next_unlogged`: what a stage does to a program is what it does with no log.
  * `log_unseen`: runs with the same unlogged stages show the same, ask the stores the
    same and end alike.
-/
import Mathlib.Logic.Function.Basic
import BootOptions.Proofs.Outcome
import BootOptions.Session
import BootOptions.Store.Memory

namespace BootOptions

/-! ## Scans without the trace -/

/-- The same settings, without the trace. -/
def ScanConfig.untraced (cfg : ScanConfig) : ScanConfig := { cfg with trace := false }

/-- A notice of the trace: one about a boot option taken in. -/
def Notice.isTrace : Notice → Bool
  | accepted .. => true
  | _ => false

/-- The notices that are none of the trace. -/
def Notice.quiet (ns : List Notice) : List Notice := ns.filter (!·.isTrace)

/-- What follows an answer, without the notices of the trace. -/
def Step.quiet : Step → Step
  | more w ns => more w (Notice.quiet ns)
  | done r n => done r n

/-- A scan, without the notices of the trace. -/
def Scan.quiet {σ : Type} (s : Scan σ) : Scan σ := { s with notices := Notice.quiet s.notices }

/-- A refreshed inventory, without the notices of the trace. -/
def Refresh.quiet {σ : Type} (r : Refresh σ) : Refresh σ := { r with notices := Notice.quiet r.notices }

theorem Notice.quiet_append (ns ns' : List Notice) : quiet (ns ++ ns') = quiet ns ++ quiet ns' :=
  List.filter_append ns ns'

namespace Walk

variable {cfg : ScanConfig} {w : Walk} {a : Answer}

theorem quiet_notices (cfg : ScanConfig) (a : Answer) :
    Notice.quiet (a.notices cfg) = a.notices cfg.untraced := by
  show _ = []
  unfold Answer.notices
  split
  · cases a.option? <;> rfl
  · rfl

/-- The trace flag decides what is told of an answer, not what follows it. -/
theorem Reaction.untraced {t : Step} (h : Reaction cfg w a t) : Reaction cfg.untraced w a t.quiet := by
  cases h with
  | told hs =>
    rw [Step.quiet, quiet_notices]
    exact .told hs
  | larger hb hn hl => exact .larger hb hn hl
  | exhausted hs => exact .exhausted hs
  | tooLong hb hl => exact .tooLong hb hl
  | failed hs hn hb => exact .failed hs hn hb

theorem step_untraced (w : Walk) (cfg : ScanConfig) (a : Answer) :
    w.step cfg.untraced a = (w.step cfg a).quiet :=
  step_eq_iff.2 (step_eq_iff.1 rfl).untraced

/-- The trace does not tell how a walk ends. -/
theorem isTrace_of_done {r : Except ScanError (List BootOption)} {n : Notice}
    (h : w.step cfg a = .done r n) : n.isTrace = false := by
  obtain ⟨-, -, rfl⟩ | ⟨-, -, -, rfl⟩ | ⟨-, -, -, -, rfl⟩ := step_done h
  · rfl
  · rfl
  · rfl

variable {σ : Type} [VariableStore σ]

theorem run_untraced (cfg : ScanConfig) (fuel : Nat) (w : Walk) (store : σ) :
    run cfg.untraced fuel w store = (run cfg fuel w store).quiet := by
  induction fuel generalizing w store with
  | zero => rfl
  | succ fuel ih =>
    have hq := w.step_untraced cfg (NameIterator.next store w.cursor.request).1
    rcases h : w.step cfg (NameIterator.next store w.cursor.request).1 with ⟨w', ns⟩ | ⟨r, n⟩
    · rw [h] at hq
      rw [run_more h, run_more hq, ih]
      simp only [Scan.quiet, Notice.quiet_append]
    · -- the notice that closes a run is none of the trace, so `quiet` keeps it
      rw [h] at hq
      rw [run_done h, run_done hq]
      simp [Scan.quiet, Notice.quiet, isTrace_of_done h]

end Walk

section
variable {σ : Type} [VariableStore σ]

theorem scan_untraced (cfg : ScanConfig) (fuel : Nat) (store : σ) :
    scan cfg.untraced fuel store = (scan cfg fuel store).quiet := by
  unfold scan
  split
  · exact Walk.run_untraced ..
  · rfl

theorem Inventory.refresh_untraced (inv : Inventory) (cfg : ScanConfig) (fuel : Nat) (store : σ) :
    inv.refresh cfg.untraced fuel store = (inv.refresh cfg fuel store).quiet := by
  unfold refresh
  split
  · rw [scan_untraced]
    rcases hr : (scan cfg fuel store).result with _ | ⟨e | os⟩ <;> simp only [Scan.quiet, hr] <;> rfl
  · rfl

end

/-! ## Runs of a program -/

/-- A variable store of any kind. -/
structure AnyStore : Type 1 where
  {kind : Type}
  [isStore : VariableStore kind]
  store : kind

attribute [instance] AnyStore.isStore

/-- The inventories of a program, and the stores it scans. -/
structure Program : Type 1 where
  session : Session
  stores : Nat → AnyStore

/-- What is done at one stage: a command to the inventory of the holder, or a change to a store. -/
inductive Job : Type 1 where
  /-- scan one of the stores, with at most `fuel` questions -/
  | refresh (source : Nat) (cfg : ScanConfig) (fuel : Nat)
  | nextFree
  | clear
  | look
  /-- put another store in the place of one, or what has become of it meanwhile -/
  | alter (source : Nat) (change : AnyStore → AnyStore)

/-- A stage of a run: the filter now in force, and a job for a holder. -/
structure Stage : Type 1 where
  filter : Log.Filter
  holder : Holder
  job : Job

/-- The command that a job is for its holder. -/
def Job.command (stores : Nat → AnyStore) : Job → Command
  | refresh i cfg fuel => .refresh (stores i).store cfg fuel
  | nextFree => .nextFree
  | clear => .clear
  | look | alter .. => .look

/-- The stores behind a job whose holder has the inventory `inv`. -/
def Job.storesAfter (inv : Inventory) (stores : Nat → AnyStore) : Job → Nat → AnyStore
  | refresh i cfg fuel => Function.update stores i ⟨(inv.refresh cfg fuel (stores i).store).store⟩
  | alter i change => Function.update stores i (change (stores i))
  | _ => stores

/-- The exchanges that an answer to a command tells of. -/
def Reply.exchanges : Reply → List Exchange
  | refreshed _ es => es
  | _ => []

/-- The exchanges of the store `i` in a job with the answer `r`. -/
def Job.exchangesOf (i : Nat) (r : Reply) : Job → List Exchange
  | refresh j .. => if j = i then r.exchanges else []
  | _ => []

namespace Program

/-- Carry out the command of a stage, under the filter of that stage. -/
def turn (p : Program) (x : Stage) : Turn :=
  Session.turn { p.session with filter := x.filter } x.holder (x.job.command p.stores)

/-- The program behind a stage: its session, and the stores as the job left them. -/
def next (p : Program) (x : Stage) : Program where
  session := (p.turn x).session
  stores := x.job.storesAfter (p.session.inventory x.holder) p.stores

/-- The program behind some stages. -/
def after (p : Program) (xs : List Stage) : Program := xs.foldl next p

/-- What a run shows, stage by stage: the answer, and the inventory of the holder behind it. -/
def seen (p : Program) : List Stage → List (Reply × Inventory)
  | [] => []
  | x :: xs => ((p.turn x).reply, (p.next x).session.inventory x.holder) :: seen (p.next x) xs

/-- The exchanges of the store `i` in a run. -/
def asked (i : Nat) (p : Program) : List Stage → List Exchange
  | [] => []
  | x :: xs => x.job.exchangesOf i (p.turn x).reply ++ asked i (p.next x) xs

end Program

/-! ## Runs without a log -/

/-- The same job; a scan of it leaves no trace. -/
def Job.untraced : Job → Job
  | refresh i cfg fuel => refresh i cfg.untraced fuel
  | j => j

theorem Job.exchangesOf_untraced (i : Nat) (r : Reply) (j : Job) :
    j.untraced.exchangesOf i r = j.exchangesOf i r := by
  cases j <;> rfl

/-- The same stage with nothing to log. -/
def Stage.unlogged (x : Stage) : Stage := ⟨.off, x.holder, x.job.untraced⟩

namespace Program

/-- The same program, with nothing let through to its log. -/
def unlogged (p : Program) : Program := { p with session := { p.session with filter := .off } }

variable (p : Program) (x : Stage) (xs : List Stage)

/-- Neither filter nor trace shows in the answer to a stage. -/
theorem reply_unlogged : (p.unlogged.turn x.unlogged).reply = (p.turn x).reply := by
  obtain ⟨f, h, j⟩ := x
  cases j with
  | refresh i cfg fuel =>
    have hr := (p.session.inventory h).refresh_untraced cfg fuel (p.stores i).store
    have hs := congrArg (fun r => Reply.refreshed r.result r.exchanges) hr
    exact hs
  | nextFree | clear | look | alter => rfl

/-- **What a stage does is what it does with no log.** -/
theorem next_unlogged : p.unlogged.next x.unlogged = (p.next x).unlogged := by
  obtain ⟨f, h, j⟩ := x
  cases j with
  | refresh i cfg fuel =>
    have hr := (p.session.inventory h).refresh_untraced cfg fuel (p.stores i).store
    have hs := congrArg (fun r =>
      Program.mk (p.unlogged.session.put h r.inventory) (Function.update p.stores i ⟨r.store⟩)) hr
    exact hs
  | nextFree | clear | look | alter => rfl

theorem seen_unlogged : p.unlogged.seen (xs.map Stage.unlogged) = p.seen xs := by
  induction xs generalizing p with
  | nil => rfl
  | cons x xs ih =>
    rw [List.map_cons, seen, seen, reply_unlogged, next_unlogged, ih]
    rfl

theorem asked_unlogged (i : Nat) : p.unlogged.asked i (xs.map Stage.unlogged) = p.asked i xs := by
  induction xs generalizing p with
  | nil => rfl
  | cons x xs ih =>
    rw [List.map_cons, asked, asked, reply_unlogged, next_unlogged, ih, Stage.unlogged,
      Job.exchangesOf_untraced]

theorem after_unlogged : p.unlogged.after (xs.map Stage.unlogged) = (p.after xs).unlogged := by
  induction xs generalizing p with
  | nil => rfl
  | cons x xs ih =>
    show (p.unlogged.next x.unlogged).after (xs.map Stage.unlogged) = ((p.next x).after xs).unlogged
    rw [next_unlogged, ih]

variable {p x xs} {p' : Program} {xs' : List Stage}

/-- **Nothing but the log shows how it is kept.**  Two runs that differ in the filters
    of the log and in the trace flags alone give the same answers, with the same errors,
    and leave the same inventories at every stage; they ask every store the same, and
    the inventories and stores behind them are the same. -/
theorem log_unseen (hp : p.unlogged = p'.unlogged)
    (hx : xs.map Stage.unlogged = xs'.map Stage.unlogged) :
    p.seen xs = p'.seen xs' ∧ (∀ i, p.asked i xs = p'.asked i xs') ∧
      (p.after xs).session.inventory = (p'.after xs').session.inventory ∧
      (p.after xs).stores = (p'.after xs').stores := by
  have ha : (p.after xs).unlogged = (p'.after xs').unlogged := by
    rw [← after_unlogged, hp, hx, after_unlogged]
  have hi : (p.after xs).unlogged.session.inventory = (p'.after xs').unlogged.session.inventory := by
    rw [ha]
  have hs : (p.after xs).unlogged.stores = (p'.after xs').unlogged.stores := congrArg stores ha
  refine ⟨?_, ?_, hi, hs⟩
  · rw [← seen_unlogged, hp, hx, seen_unlogged]
  · intro i
    rw [← asked_unlogged, hp, hx, asked_unlogged]

/-- A program with a store that warns behind a boot option, and stores with one. -/
def mixed (filter : Log.Filter) : Program where
  session := { filter }
  stores i := if i = 0 then ⟨warning⟩ else ⟨{ contents := [.ofText .global "Boot0000"] : MemoryStore }⟩

/-- Two scans and a look-up, the second scan under another filter. -/
def scans (f g : Log.Filter) (trace : Bool) : List Stage :=
  [⟨f, .shared, .refresh 0 ⟨4, 20, trace⟩ 9⟩, ⟨g, .shared, .refresh 1 ⟨4, 20, trace⟩ 9⟩,
    ⟨g, .shared, .nextFree⟩]

/-- The first scan fails and tells two lines, or fails and tells none. -/
theorem log_unseen_mixed :
    (mixed .off).seen (scans (.upTo .trace) .off true) =
      (mixed (.upTo .warn)).seen (scans .off (.upTo .info) false) ∧
    ((mixed (.upTo .warn)).after (scans .off (.upTo .info) false)).session.inventory .shared =
      ⟨some [⟨"Boot0000", 0⟩]⟩ ∧
    ((mixed .off).turn ⟨.upTo .trace, .shared, .refresh 0 ⟨4, 20, true⟩ 9⟩).lines.length = 2 ∧
    ((mixed (.upTo .warn)).turn ⟨.off, .shared, .refresh 0 ⟨4, 20, false⟩ 9⟩).lines.length = 0 := by
  have hp : (mixed .off).unlogged = (mixed (.upTo .warn)).unlogged := rfl
  have hx : (scans (.upTo .trace) .off true).map Stage.unlogged =
      (scans .off (.upTo .info) false).map Stage.unlogged := rfl
  obtain ⟨hs, -, hi, -⟩ := log_unseen hp hx
  refine ⟨hs, ?_, by decide +kernel, by decide +kernel⟩
  rw [← hi]
  decide +kernel

end Program

end BootOptions
