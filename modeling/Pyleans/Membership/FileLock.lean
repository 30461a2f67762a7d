import Mathlib.Data.List.TakeDrop
import Mathlib.Tactic.Common
import Pyleans.Library.Linearizability

namespace Pyleans.FileLock

open Library

abbrev Bytes := List UInt8

inductive Failure
  | lockTimeout
  | cancelled
  | osError
deriving DecidableEq

/-- A call that fails has not got to an answer of its own. `unreleased` has, and
its caller gets the `OSError` that freeing the lock has raised in place of it. -/
inductive Outcome (Ans : Type)
  | answered (a : Ans)
  | failed (why : Failure)
  | unreleased (a : Ans)

/-- What is left of an outcome when freeing the lock raises an `OSError`. -/
def Outcome.loseRelease {Ans : Type} : Outcome Ans → Outcome Ans
  | .failed _ => .failed .osError
  | .answered a | .unreleased a => .unreleased a

/-- Where a call stands in `async with self._file_lock()` and, inside it, in
`_load_table` and `atomic_write`. -/
inductive Phase (Ans : Type)
  | acquiring
  | acquired
  | present
  | preparing (a : Ans) (data : Bytes)
  | opening (a : Ans) (data : Bytes)
  | writing (a : Ans) (data : Bytes) (written : ℕ)
  | replacing (a : Ans) (data : Bytes)
  | unlinking (why : Failure)
  | exiting (res : Outcome Ans)
  | returning (res : Outcome Ans)

/-- One system call, or the attempt at the lock, that a call makes next. -/
inductive Action
  | tryLock
  | giveUp (why : Failure)
  | fileExists
  | readText
  | mkdir
  | openTmp
  | write (chunk : ℕ)
  | fsync
  | replace
  | raiseOsError
  | unlink (done : Bool)
  | release
  | failRelease
deriving DecidableEq

structure Call (Op Ans : Type) where
  pid : ℕ
  op : Op
  phase : Phase Ans
  running : Bool

/-- The file, the temporary file of each process beside it, and the call that
has the lock on the sidecar file. -/
structure Disk (Id : Type) where
  target : Option Bytes
  tmp : ℕ → Option Bytes
  lock : Option Id

structure World (Id Op Ans : Type) where
  disk : Disk Id
  calls : Id → Option (Call Op Ans)

inductive FileEvent (Id Op : Type)
  | call (id : Id) (pid : ℕ) (op : Op)
  | act (id : Id) (a : Action)
  | ret (id : Id)
  | crash (pid : ℕ)

variable {Id Op Ans : Type}

/-- What a provider computes between reading the file and writing it: its
answer and, if it writes, the bytes. -/
abbrev Body (Op Ans : Type) := Option Bytes → Op → Ans × Option Bytes

def afterBody (r : Ans × Option Bytes) : Phase Ans :=
  match r.2 with
  | none => .exiting (.answered r.1)
  | some data => .preparing r.1 data

def writeAt (content : Bytes) (offset : ℕ) (chunk : Bytes) : Bytes :=
  content.take offset ++ chunk ++ content.drop (offset + chunk.length)

section Model

variable [DecidableEq Id] (body : Body Op Ans)

def perform (id : Id) (pid : ℕ) (op : Op) (d : Disk Id) :
    Phase Ans → Action → Option (Disk Id × Phase Ans)
  | .acquiring, .tryLock =>
    if d.lock = none then some ({ d with lock := some id }, .acquired) else some (d, .acquiring)
  | .acquiring, .giveUp why => some (d, .returning (.failed why))
  | .acquired, .fileExists =>
    if d.target = none then some (d, afterBody (body none op)) else some (d, .present)
  | .acquired, .raiseOsError => some (d, .exiting (.failed .osError))
  | .present, .readText =>
    match d.target with
    | none => some (d, .exiting (.failed .osError))
    | some content => some (d, afterBody (body (some content) op))
  | .present, .raiseOsError => some (d, .exiting (.failed .osError))
  | .preparing a data, .mkdir => some (d, .opening a data)
  | .preparing _ _, .raiseOsError => some (d, .exiting (.failed .osError))
  | .opening a data, .openTmp =>
    some ({ d with tmp := Function.update d.tmp pid (some []) }, .writing a data 0)
  | .opening _ _, .raiseOsError => some (d, .unlinking .osError)
  | .writing a data written, .write chunk =>
    if written < data.length ∧ chunk ≤ data.length - written then
      if chunk = 0 then some (d, .unlinking .osError)
      else
        let content := writeAt ((d.tmp pid).getD []) written ((data.drop written).take chunk)
        some ({ d with tmp := Function.update d.tmp pid (some content) },
          .writing a data (written + chunk))
    else none
  | .writing a data written, .fsync =>
    if written < data.length then none else some (d, .replacing a data)
  | .writing _ _ _, .raiseOsError => some (d, .unlinking .osError)
  | .replacing a _, .replace =>
    match d.tmp pid with
    | none => some (d, .unlinking .osError)
    | some content =>
      some ({ d with target := some content, tmp := Function.update d.tmp pid none },
        .exiting (.answered a))
  | .replacing _ _, .raiseOsError => some (d, .unlinking .osError)
  | .unlinking why, .unlink done =>
    some ({ d with tmp := if done then Function.update d.tmp pid none else d.tmp },
      .exiting (.failed why))
  | .exiting res, .release => some ({ d with lock := none }, .returning res)
  -- closing the descriptor frees the lock, whatever `flock` or `close` raises
  | .exiting res, .failRelease => some ({ d with lock := none }, .returning res.loseRelease)
  | _, _ => none

/-- The system frees the lock of a process that dies; its temporary file stays. -/
def step (s : World Id Op Ans) : FileEvent Id Op → Option (World Id Op Ans)
  | .call id pid op =>
    if s.calls id = none then
      some { s with calls := Function.update s.calls id (some ⟨pid, op, .acquiring, true⟩) }
    else none
  | .act id a =>
    match s.calls id with
    | some ⟨pid, op, phase, true⟩ => (perform body id pid op s.disk phase a).map fun r ↦
        ⟨r.1, Function.update s.calls id (some ⟨pid, op, r.2, true⟩)⟩
    | _ => none
  | .ret id =>
    match s.calls id with
    | some ⟨_, _, .returning _, true⟩ => some { s with calls := Function.update s.calls id none }
    | _ => none
  | .crash pid => some {
      disk :=
        { s.disk with lock := s.disk.lock.filter fun id ↦ ¬ (s.calls id).any fun c ↦ c.pid = pid }
      calls id := (s.calls id).map fun c ↦ if c.pid = pid then { c with running := false } else c }

end Model

def World.start (target : Option Bytes) : World Id Op Ans :=
  ⟨⟨target, fun _ ↦ none, none⟩, fun _ ↦ none⟩

def Phase.inside : Phase Ans → Bool
  | .acquiring | .returning _ => false
  | _ => true

def Phase.outcome (failing : Bool) : Phase Ans → Option (Outcome Ans)
  | .exiting res => some (if failing then res.loseRelease else res)
  | .returning res => some res
  | _ => none

def failsRelease [DecidableEq Id] (id : Id) : List (FileEvent Id Op) → Bool
  | [] => false
  | .act id' a :: events => if id' = id then decide (a = .failRelease) else failsRelease id events
  | _ :: events => failsRelease id events

def Phase.hasTmp : Phase Ans → Bool
  | .writing _ _ _ | .replacing _ _ | .unlinking _ => true
  | _ => false

/-- The object that the file is: a call applies `body` to its contents as a
whole, or fails and leaves it as it is. -/
def fileSpec (body : Body Op Ans) : Spec (Option Bytes) Op (Outcome Ans)
  | content, op, .answered a, content' | content, op, .unreleased a, content' =>
    a = (body content op).1 ∧ content' = (body content op).2.or content
  | content, _, .failed _, content' => content' = content

def shown (s : World Id Op Ans) : FileEvent Id Op → List (Event Id Op (Outcome Ans))
  | .call id _ op => [.call id op]
  | .ret id =>
    (((s.calls id).bind fun c ↦ c.phase.outcome false).map fun res ↦ Event.ret id res).toList
  | _ => []

/-- The table and the calls on it, before the events that are still to come. -/
def World.abs [DecidableEq Id] (s : World Id Op Ans) (ahead : List (FileEvent Id Op)) :
    Atomic (Option Bytes) Id Op (Outcome Ans) where
  object := s.disk.target
  pending id := (s.calls id).map fun c ↦ (c.op, c.phase.outcome (failsRelease id ahead))

/-- What a phase says about the disk: the bytes to write were computed from
what the file still holds, and the temporary file has as many of them as were
written. -/
def Prepared (body : Body Op Ans) (pid : ℕ) (op : Op) (d : Disk Id) : Phase Ans → Prop
  | .preparing a data | .opening a data => body d.target op = (a, some data)
  | .writing a data written =>
    body d.target op = (a, some data) ∧ written ≤ data.length ∧ d.tmp pid = some (data.take written)
  | .replacing a data => body d.target op = (a, some data) ∧ d.tmp pid = some data
  | _ => True

/-- The lock is with the one running call that is inside, and every running
call finds the disk as it left it. -/
structure Consistent (body : Body Op Ans) (s : World Id Op Ans) : Prop where
  lock id : s.disk.lock = some id ↔ ∃ c, s.calls id = some c ∧ c.running = true ∧
    c.phase.inside = true
  prepared id c : s.calls id = some c → c.running = true → Prepared body c.pid c.op s.disk c.phase

theorem writeAt_take {data : Bytes} {n : ℕ} (hn : n ≤ data.length) (chunk : ℕ) :
    writeAt (data.take n) n ((data.drop n).take chunk) = data.take (n + chunk) := by
  have htake : (data.take n).take n = data.take n := by rw [List.take_take, Nat.min_self]
  have hdrop : (data.take n).drop (n + ((data.drop n).take chunk).length) = [] := by
    apply List.drop_eq_nil_of_le
    rw [List.length_take_of_le hn]
    exact Nat.le_add_right _ _
  rw [writeAt, htake, hdrop, List.append_nil, List.take_add]

section Perform

variable {body : Body Op Ans} {id : Id} {pid : ℕ} {op : Op} {d d' : Disk Id}
  {p p' : Phase Ans} {a : Action}

theorem inside_afterBody (r : Ans × Option Bytes) : (afterBody r).inside = true := by
  rw [afterBody]
  split <;> rfl

/-- A call takes the lock when it is free, keeps it as long as it is inside, and frees it when it
leaves. -/
theorem perform_lock (h : perform body id pid op d p a = some (d', p')) :
    (p.inside = false ∧ d.lock = none ∧ d'.lock = some id ∧ p'.inside = true) ∨
      (p'.inside = p.inside ∧ d'.lock = d.lock) ∨
        (p.inside = true ∧ p'.inside = false ∧ d'.lock = none) := by
  revert h
  fun_cases perform body id pid op d p a <;> intro h <;> cases h
  all_goals
    first
      | exact .inl ⟨rfl, ‹_›, rfl, rfl⟩
      | exact .inr (.inl ⟨rfl, rfl⟩)
      | exact .inr (.inl ⟨inside_afterBody _, rfl⟩)
      | exact .inr (.inr ⟨rfl, rfl, rfl⟩)

/-- No call touches the temporary file of another process, and none touches a file at all while it
is outside. -/
theorem perform_frame (h : perform body id pid op d p a = some (d', p')) :
    (∀ pid' ≠ pid, d'.tmp pid' = d.tmp pid') ∧
      (p.inside = false → d'.target = d.target ∧ d'.tmp = d.tmp) := by
  revert h
  fun_cases perform body id pid op d p a <;> intro h <;> cases h
  case case23 why done =>
    refine ⟨fun pid' hne ↦ ?_, fun hout ↦ by cases hout⟩
    cases done
    · rfl
    · exact Function.update_of_ne hne _ _
  all_goals
    first
      | exact ⟨fun _ _ ↦ rfl, fun _ ↦ ⟨rfl, rfl⟩⟩
      | exact ⟨fun _ hne ↦ Function.update_of_ne hne _ _, fun hout ↦ by cases hout⟩

theorem prepared_afterBody {r : Ans × Option Bytes} (hr : body d.target op = r) :
    Prepared body pid op d (afterBody r) := by
  obtain ⟨answer, written⟩ := r
  cases written with
  | none => trivial
  | some data => exact hr

theorem perform_prepared (hp : Prepared body pid op d p)
    (h : perform body id pid op d p a = some (d', p')) :
    Prepared body pid op d' p' := by
  revert h
  fun_cases perform body id pid op d p a <;> intro h <;> cases h
  case case4 htarget => exact prepared_afterBody (by rw [htarget])
  case case8 content htarget => exact prepared_afterBody (by rw [htarget])
  case case12 answer data => exact ⟨hp, Nat.zero_le _, Function.update_self _ _ _⟩
  case case15 answer data written chunk hchunk hne content =>
    obtain ⟨hbody, hwritten, htmp⟩ := hp
    refine ⟨hbody, by omega, ?_⟩
    have hcontent : content = data.take (written + chunk) := by
      show writeAt ((d.tmp pid).getD []) written ((data.drop written).take chunk) =
        data.take (written + chunk)
      rw [htmp, Option.getD_some, writeAt_take hwritten]
    exact (Function.update_self _ _ _).trans (congrArg some hcontent)
  case case18 answer data written hdone =>
    obtain ⟨hbody, -, htmp⟩ := hp
    exact ⟨hbody, by rw [htmp, List.take_of_length_le (Nat.not_lt.mp hdone)]⟩
  all_goals trivial

theorem fileSpec_loseRelease {content content' : Option Bytes} {res : Outcome Ans}
    (h : fileSpec body content op res content') (failing : Bool) :
    fileSpec body content op (if failing then res.loseRelease else res) content' := by
  cases failing with
  | false => exact h
  | true => cases res <;> exact h

theorem outcome_afterBody (body : Body Op Ans) (op : Op) (d : Disk Id) {r : Ans × Option Bytes}
    (hr : body d.target op = r) (failing : Bool) : (afterBody r).outcome failing = none ∨
      ∃ res, (afterBody r).outcome failing = some res ∧ fileSpec body d.target op res d.target := by
  obtain ⟨answer, written⟩ := r
  cases written with
  | none =>
    have hspec : fileSpec body d.target op (.answered answer) d.target :=
      ⟨by rw [hr], by rw [hr]; rfl⟩
    exact .inr ⟨_, rfl, fileSpec_loseRelease hspec failing⟩
  | some data => exact .inl rfl

/-- A call takes effect when it replaces the file, when it has read it and has nothing to write, or
when it fails. `failing` is whether it is going to fail to free the lock after this action. -/
theorem perform_point (hp : Prepared body pid op d p)
    (h : perform body id pid op d p a = some (d', p')) (failing : Bool) :
    (p'.outcome failing = p.outcome (decide (a = .failRelease)) ∧ d'.target = d.target) ∨
      ∃ res, (∀ failing, p.outcome failing = none) ∧ p'.outcome failing = some res ∧
        fileSpec body d.target op res d'.target := by
  have hfails : ∀ why, ∃ res,
    Phase.outcome failing (.exiting (.failed why) : Phase Ans) = some res ∧
      fileSpec body d.target op res d.target := fun why ↦
    ⟨_, rfl, fileSpec_loseRelease
      (show fileSpec body d.target op (.failed why) d.target from rfl) failing⟩
  revert h
  fun_cases perform body id pid op d p a <;> intro h <;> cases h
  case case4 htarget =>
    rcases outcome_afterBody body op d (by rw [htarget]) failing with hnone | ⟨res, hres, hspec⟩
    · exact .inl ⟨hnone, rfl⟩
    · exact .inr ⟨res, fun _ ↦ rfl, hres, hspec⟩
  case case8 content htarget =>
    rcases outcome_afterBody body op d (by rw [htarget]) failing with hnone | ⟨res, hres, hspec⟩
    · exact .inl ⟨hnone, rfl⟩
    · exact .inr ⟨res, fun _ ↦ rfl, hres, hspec⟩
  case case21 answer data content htmp =>
    obtain ⟨hbody, hdata⟩ := hp
    obtain rfl := Option.some.inj (hdata.symm.trans htmp)
    have hspec : fileSpec body d.target op (.answered answer) (some data) :=
      ⟨by rw [hbody], by rw [hbody]; rfl⟩
    exact .inr ⟨_, fun _ ↦ rfl, rfl, fileSpec_loseRelease hspec failing⟩
  all_goals
    first
      | exact .inl ⟨rfl, rfl⟩
      | exact .inr ⟨_, fun _ ↦ rfl, rfl, rfl⟩
      | exact .inr ((hfails _).imp fun _ hres ↦ ⟨fun _ ↦ rfl, hres⟩)

theorem perform_tmp (ha : a ≠ .unlink false) (h : perform body id pid op d p a = some (d', p')) :
    p'.hasTmp = true ∨ d'.tmp pid = none ∨ (p.hasTmp = false ∧ d'.tmp pid = d.tmp pid) := by
  revert h
  fun_cases perform body id pid op d p a <;> intro h <;> cases h
  case case21 => exact .inr (.inl (Function.update_self _ _ _))
  case case23 why done =>
    cases done
    · exact absurd rfl ha
    · exact .inr (.inl (Function.update_self _ _ _))
  all_goals
    first
      | exact .inl rfl
      | exact .inr (.inr ⟨rfl, rfl⟩)

end Perform

section Run

variable [DecidableEq Id] {body : Body Op Ans} {s s' : World Id Op Ans} {e : FileEvent Id Op}

omit [DecidableEq Id] in
theorem consistent_start (target : Option Bytes) :
    Consistent body (.start target : World Id Op Ans) := by
  refine ⟨fun id ↦ iff_of_false (fun h ↦ by cases h) ?_, fun id c h ↦ by cases h⟩
  rintro ⟨c, hc, -⟩
  cases hc

omit [DecidableEq Id] in
theorem prepared_outside {pid : ℕ} {op : Op} {d : Disk Id} {p : Phase Ans} (h : p.inside = false) :
    Prepared body pid op d p := by
  cases p <;> trivial

theorem step_act_cases {id : Id} {a : Action} (hs : step body s (.act id a) = some s') :
    ∃ pid op p d' p', s.calls id = some ⟨pid, op, p, true⟩ ∧
      perform body id pid op s.disk p a = some (d', p') ∧
      s' = ⟨d', Function.update s.calls id (some ⟨pid, op, p', true⟩)⟩ := by
  simp only [step] at hs
  split at hs
  · next pid op p hc =>
    obtain ⟨⟨d', p'⟩, hp, rfl⟩ := Option.map_eq_some_iff.mp hs
    exact ⟨pid, op, p, d', p', hc, hp, rfl⟩
  · cases hs

theorem step_ret_cases {id : Id} (hs : step body s (.ret id) = some s') :
    ∃ pid op res, s.calls id = some ⟨pid, op, .returning res, true⟩ ∧
      s' = { s with calls := Function.update s.calls id none } := by
  simp only [step] at hs
  split at hs
  · next pid op res hc => exact ⟨pid, op, res, hc, (Option.some.inj hs).symm⟩
  · cases hs

theorem Consistent.act (h : Consistent body s) {id : Id} {a : Action}
    (hs : step body s (.act id a) = some s') :
    Consistent body s' := by
  obtain ⟨pid, op, p, d', p', hc, hp, rfl⟩ := step_act_cases hs
  have hmine : s.disk.lock = some id ↔ p.inside = true := by
    simp [h.lock id, hc]
  have hmine' : d'.lock = some id ↔ p'.inside = true := by
    rcases perform_lock hp with ⟨-, -, hl, hin⟩ | ⟨hin, hl⟩ | ⟨-, hin, hl⟩
    · simp [hl, hin]
    · rw [hl, hin, hmine]
    · simp [hl, hin]
  have hother id' (hne : id' ≠ id) : d'.lock = some id' ↔ s.disk.lock = some id' := by
    rcases perform_lock hp with ⟨-, hfree, hl, -⟩ | ⟨-, hl⟩ | ⟨hin, -, hl⟩
    · simp [hl, hfree, Ne.symm hne]
    · rw [hl]
    · simp [hl, hmine.mpr hin, Ne.symm hne]
  refine ⟨fun id' ↦ ?_, fun id' c hc' hrun ↦ ?_⟩
  · by_cases hid : id' = id
    · subst hid
      simpa [Function.update_self] using hmine'
    · rw [hother id' hid, h.lock id']
      simp only [Function.update_of_ne hid]
  · by_cases hid : id' = id
    · subst hid
      simp only [Function.update_self, Option.some.injEq] at hc'
      subst hc'
      exact perform_prepared (h.prepared id' ⟨pid, op, p, true⟩ hc rfl) hp
    · simp only [Function.update_of_ne hid] at hc'
      by_cases hin : c.phase.inside = true
      · -- the other call has the lock, so this one is outside and leaves the files alone
        have hheld := (h.lock id').mpr ⟨c, hc', hrun, hin⟩
        have hout : p.inside = false := by
          rw [← Bool.not_eq_true, ← hmine, hheld]
          simpa using hid
        have hlock : d'.target = s.disk.target ∧ d'.tmp = s.disk.tmp := (perform_frame hp).2 hout
        have hprepared := h.prepared id' c hc' hrun
        cases hphase : c.phase <;> simp_all [Prepared]
      · exact prepared_outside (Bool.eq_false_iff.mpr hin)

theorem Consistent.outside (h : Consistent body s) {id : Id} {r : Option (Call Op Ans)}
    (hold : ∀ c, s.calls id = some c → c.phase.inside = false)
    (hnew : ∀ c, r = some c → c.phase.inside = false) :
    Consistent body { s with calls := Function.update s.calls id r } := by
  refine ⟨fun id' ↦ ?_, fun id' c hc hrun ↦ ?_⟩
  · rw [h.lock id']
    by_cases hid : id' = id
    · subst hid
      simp only [Function.update_self]
      refine iff_of_false ?_ ?_
      · rintro ⟨c, hc, -, hin⟩
        exact Bool.false_ne_true ((hold c hc).symm.trans hin)
      · rintro ⟨c, hc, -, hin⟩
        exact Bool.false_ne_true ((hnew c hc).symm.trans hin)
    · simp only [Function.update_of_ne hid]
  · by_cases hid : id' = id
    · subst hid
      simp only [Function.update_self] at hc
      exact prepared_outside (hnew c hc)
    · simp only [Function.update_of_ne hid] at hc
      exact h.prepared id' c hc hrun

theorem Consistent.crash (h : Consistent body s) {pid : ℕ}
    (hs : step body s (.crash pid) = some s') :
    Consistent body s' := by
  obtain rfl := Option.some.inj hs
  have hcalls {id : Id} {c : Call Op Ans} (hc : ((s.calls id).map fun c ↦
      if c.pid = pid then { c with running := false } else c) = some c) (hrun : c.running = true) :
      s.calls id = some c ∧ c.pid ≠ pid := by
    obtain ⟨c', hc', rfl⟩ := Option.map_eq_some_iff.mp hc
    split at hrun
    · cases hrun
    · next hne => exact ⟨by rw [hc', if_neg hne], by rwa [if_neg hne]⟩
  refine ⟨fun id ↦ ?_, fun id c hc hrun ↦ ?_⟩
  · rw [Option.filter_eq_some_iff, h.lock id]
    constructor
    · rintro ⟨⟨c, hc, hrun, hin⟩, hlive⟩
      rw [hc] at hlive
      have hne : c.pid ≠ pid := by simpa using hlive
      exact ⟨c, by simp only [hc, Option.map_some, if_neg hne], hrun, hin⟩
    · rintro ⟨c, hc, hrun, hin⟩
      obtain ⟨hc, hne⟩ := hcalls hc hrun
      exact ⟨⟨c, hc, hrun, hin⟩, by simpa [hc] using hne⟩
  · have hprepared := h.prepared id c (hcalls hc hrun).1 hrun
    cases hphase : c.phase <;> rw [hphase] at hprepared <;> exact hprepared

theorem Consistent.step (h : Consistent body s) (hs : step body s e = some s') :
    Consistent body s' := by
  cases e with
  | act id a => exact h.act hs
  | crash pid => exact h.crash hs
  | call id pid op =>
    rw [FileLock.step] at hs
    split_ifs at hs with hnew
    obtain rfl := Option.some.inj hs
    apply h.outside
    · intro c hc
      rw [hnew] at hc
      cases hc
    · intro c hc
      obtain rfl := Option.some.inj hc
      rfl
  | ret id =>
    obtain ⟨pid, op, res, hc, rfl⟩ := step_ret_cases hs
    apply h.outside
    · intro c hc'
      obtain rfl := Option.some.inj (hc.symm.trans hc')
      rfl
    · intro c hc'
      cases hc'

theorem abs_update (d : Disk Id) (id : Id) (c : Call Op Ans) (ahead : List (FileEvent Id Op)) :
    (World.mk d (Function.update s.calls id (some c))).abs ahead =
      ⟨d.target, Function.update (s.abs ahead).pending id
        (some (c.op, c.phase.outcome (failsRelease id ahead)))⟩ := by
  simp only [World.abs, Atomic.mk.injEq, true_and]
  funext id'
  by_cases hid : id' = id
  · subst hid
    simp only [Function.update_self, Option.map_some]
  · simp only [Function.update_of_ne hid]

/-- Only what a call itself does next says what it comes to. -/
theorem pending_ahead {id : Id} {a : Action} {ahead : List (FileEvent Id Op)} {id' : Id}
    (hne : id' ≠ id) :
    (s.abs (.act id a :: ahead)).pending id' = (s.abs ahead).pending id' := by
  simp only [World.abs, failsRelease, if_neg (Ne.symm hne)]

theorem simulates_act (h : Consistent body s) {id : Id} {a : Action}
    {ahead : List (FileEvent Id Op)} (hs : step body s (.act id a) = some s') :
    ∃ marks, visible marks = shown s (.act id a) ∧
      AtomicRun (fileSpec body) (s.abs (.act id a :: ahead)) marks (s'.abs ahead) := by
  obtain ⟨pid, op, p, d', p', hc, hp, rfl⟩ := step_act_cases hs
  have hpending : (s.abs (.act id a :: ahead)).pending id =
    some (op, p.outcome (decide (a = .failRelease))) := by
    simp only [World.abs, hc, Option.map_some, failsRelease, if_true]
  have hothers (r : Option (Op × Option (Outcome Ans))) : Function.update
    (s.abs ahead).pending id r =
      Function.update (s.abs (.act id a :: ahead)).pending id r := by
    funext id'
    by_cases hid : id' = id
    · rw [hid, Function.update_self, Function.update_self]
    · rw [Function.update_of_ne hid, Function.update_of_ne hid, pending_ahead hid]
  rw [abs_update, hothers]
  rcases perform_point (h.prepared id ⟨pid, op, p, true⟩ hc rfl) hp (failsRelease id ahead) with
    ⟨hout, htarget⟩ | ⟨res, hnone, hout, hspec⟩
  · refine ⟨[], rfl, ?_⟩
    have hsame : Function.update (s.abs (.act id a :: ahead)).pending id
        (some (op, p'.outcome (failsRelease id ahead))) = (s.abs (.act id a :: ahead)).pending := by
      rw [hout, ← hpending, Function.update_eq_self]
    rw [hsame, htarget]
    exact .nil
  · refine ⟨[.point id op res], rfl, .cons ?_ .nil⟩
    rw [hout]
    exact .point (by rw [hpending, hnone]) hspec

theorem simulates_ret {id : Id} {ahead : List (FileEvent Id Op)}
    (hs : step body s (.ret id) = some s') :
    ∃ marks, visible marks = shown s (.ret id) ∧
      AtomicRun (fileSpec body) (s.abs (.ret id :: ahead)) marks (s'.abs ahead) := by
  obtain ⟨pid, op, res, hc, rfl⟩ := step_ret_cases hs
  have hpending : (s.abs ahead).pending id = some (op, some res) := by
    simp only [World.abs, hc, Option.map_some, Phase.outcome]
  have habs : ({ s with calls := Function.update s.calls id none } : World Id Op Ans).abs ahead =
      ⟨s.disk.target, Function.update (s.abs ahead).pending id none⟩ := by
    simp only [World.abs, Atomic.mk.injEq, true_and]
    funext id'
    by_cases hid : id' = id
    · subst hid
      simp only [Function.update_self, Option.map_none]
    · simp only [Function.update_of_ne hid]
  refine ⟨[.event (.ret id res)], ?_, .cons ?_ .nil⟩
  · simp only [shown, hc, Option.bind_some, Phase.outcome]
    rfl
  · rw [habs]
    exact .ret hpending

theorem simulates_step (h : Consistent body s) (ahead : List (FileEvent Id Op))
    (hs : step body s e = some s') :
    ∃ marks, visible marks = shown s e ∧ AtomicRun (fileSpec body) (s.abs (e :: ahead)) marks
      (s'.abs ahead) := by
  cases e with
  | act id a => exact simulates_act h hs
  | ret id => exact simulates_ret hs
  | call id pid op =>
    rw [step] at hs
    split_ifs at hs with hnew
    obtain rfl := Option.some.inj hs
    refine ⟨[.event (.call id op)], rfl, .cons ?_ .nil⟩
    rw [abs_update]
    exact .call (by simp only [World.abs, hnew, Option.map_none])
  | crash pid =>
    obtain rfl := Option.some.inj hs
    refine ⟨[], rfl, ?_⟩
    have habs :
      (⟨{ s.disk with lock := s.disk.lock.filter fun id ↦ ¬ (s.calls id).any fun c ↦ c.pid = pid },
        fun id ↦ (s.calls id).map fun c ↦ if c.pid = pid then { c with running := false } else c⟩ :
        World Id Op Ans).abs ahead = s.abs (.crash pid :: ahead) := by
      simp only [World.abs, Atomic.mk.injEq, true_and, Option.map_map]
      funext id
      congr 1
      funext c
      simp only [Function.comp_apply]
      split <;> rfl
    rw [habs]
    exact .nil

theorem consistent_of_exec {target : Option Bytes} {events : List (FileEvent Id Op)}
    (h : exec (step body) (.start target) events = some s) : Consistent body s :=
  (reachable_of_exec h).invariant (consistent_start target) fun _ _ _ hs _ hstep ↦ hs.step hstep

/-- No process dies, and every temporary file that is to be removed is. -/
def Tidy : FileEvent Id Op → Prop
  | .crash _ => False
  | .act _ (.unlink false) => False
  | _ => True

/-- Every temporary file is one that a running call is at. -/
def TmpOwned (s : World Id Op Ans) : Prop :=
  ∀ pid, s.disk.tmp pid ≠ none →
    ∃ id c, s.calls id = some c ∧ c.running = true ∧ c.pid = pid ∧ c.phase.hasTmp = true

theorem inside_of_hasTmp {p : Phase Ans} (h : p.hasTmp = true) : p.inside = true := by
  cases p <;> first | rfl | cases h

theorem TmpOwned.act (h : TmpOwned s) {id : Id} {a : Action} (ha : a ≠ .unlink false)
    (hs : step body s (.act id a) = some s') : TmpOwned s' := by
  obtain ⟨pid, op, p, d', p', hc, hp, rfl⟩ := step_act_cases hs
  intro pid' hpid'
  have hmine : p'.hasTmp = true → pid' = pid → ∃ id' c,
    Function.update s.calls id (some ⟨pid, op, p', true⟩) id' = some c ∧
      c.running = true ∧ c.pid = pid' ∧ c.phase.hasTmp = true := fun hhas hsame ↦
    ⟨id, ⟨pid, op, p', true⟩, Function.update_self _ _ _, rfl, hsame.symm, hhas⟩
  have hkept (hold : s.disk.tmp pid' ≠ none) (hidle : pid' = pid → p.hasTmp = false) :
      ∃ id' c, Function.update s.calls id (some ⟨pid, op, p', true⟩) id' = some c ∧
        c.running = true ∧ c.pid = pid' ∧ c.phase.hasTmp = true := by
    obtain ⟨id', c, hc', hrun, hpid, hhas⟩ := h pid' hold
    have hne : id' ≠ id := by
      rintro rfl
      obtain rfl := Option.some.inj (hc.symm.trans hc')
      exact Bool.false_ne_true ((hidle hpid.symm).symm.trans hhas)
    exact ⟨id', c, by rw [Function.update_of_ne hne, hc'], hrun, hpid, hhas⟩
  by_cases hsame : pid' = pid
  · rcases perform_tmp ha hp with hhas | hnone | ⟨hidle, htmp⟩
    · exact hmine hhas hsame
    · exact absurd (hsame ▸ hnone) hpid'
    · refine hkept ?_ fun _ ↦ hidle
      rw [hsame, ← htmp, ← hsame]
      exact hpid'
  · refine hkept ?_ fun h ↦ absurd h hsame
    rw [← (perform_frame hp).1 pid' hsame]
    exact hpid'

theorem TmpOwned.step (h : TmpOwned s) (htidy : Tidy e) (hs : step body s e = some s') :
    TmpOwned s' := by
  cases e with
  | crash pid => cases htidy
  | act id a =>
    refine h.act ?_ hs
    rintro rfl
    cases htidy
  | call id pid op =>
    rw [FileLock.step] at hs
    split_ifs at hs with hnew
    obtain rfl := Option.some.inj hs
    intro pid' hpid'
    obtain ⟨id', c, hc, hrest⟩ := h pid' hpid'
    refine ⟨id', c, (Function.update_of_ne ?_ _ _).trans hc, hrest⟩
    rintro rfl
    cases hnew.symm.trans hc
  | ret id =>
    obtain ⟨pid, op, res, hc, rfl⟩ := step_ret_cases hs
    intro pid' hpid'
    obtain ⟨id', c, hc', hrun, hpid, hhas⟩ := h pid' hpid'
    refine ⟨id', c, (Function.update_of_ne ?_ _ _).trans hc', hrun, hpid, hhas⟩
    rintro rfl
    obtain rfl := Option.some.inj (hc.symm.trans hc')
    cases hhas

/-- In every state of every run the lock is with the one running call that is
inside. Unless a process dies or a file cannot be removed, no temporary file is
there but that of this call. -/
theorem lock_and_tmp (body : Body Op Ans) (target : Option Bytes) (events : List (FileEvent Id Op))
    (s : World Id Op Ans) (h : exec (step body) (.start target) events = some s) :
    (∀ id, s.disk.lock = some id ↔ ∃ c, s.calls id = some c ∧ c.running = true ∧
      c.phase.inside = true) ∧
      (Meets (step body) (fun _ e ↦ Tidy e) (.start target) events → ∀ pid, s.disk.tmp pid ≠ none →
        ∃ id c, s.disk.lock = some id ∧ s.calls id = some c ∧ c.pid = pid ∧
          c.phase.hasTmp = true) := by
  refine ⟨(consistent_of_exec h).lock, fun htidy pid hpid ↦ ?_⟩
  have howned : TmpOwned s := (guarded_of_exec h htidy).invariant (fun _ hne ↦ absurd rfl hne)
    fun _ _ _ howned htidy hs ↦ howned.step htidy hs
  obtain ⟨id, c, hc, hrun, rfl, hhas⟩ := howned pid hpid
  exact ⟨id, c, ((consistent_of_exec h).lock id).mpr ⟨c, hc, hrun, inside_of_hasTmp hhas⟩, hc, rfl,
    hhas⟩

end Run

def appendByte : Body UInt8 ℕ := fun content byte ↦
  ((content.getD []).length, some (content.getD [] ++ [byte]))

def halfWritten : List (FileEvent ℕ UInt8) :=
  [.call 0 7 65, .call 1 8 66, .act 0 .tryLock, .act 0 .fileExists, .act 1 .tryLock, .act 0 .mkdir,
    .act 0 .openTmp]

theorem lock_and_tmp_halfWritten : ∃ s, exec (step appendByte) (.start none) halfWritten = some s ∧
    (∀ id, s.disk.lock = some id ↔ ∃ c, s.calls id = some c ∧ c.running = true ∧
      c.phase.inside = true) ∧
    ∀ pid, s.disk.tmp pid ≠ none →
      ∃ id c, s.disk.lock = some id ∧ s.calls id = some c ∧ c.pid = pid ∧
      c.phase.hasTmp = true := by
  have hruns : (exec (step appendByte) (.start none) halfWritten).isSome = true := by decide +kernel
  obtain ⟨s, hs⟩ := Option.isSome_iff_exists.mp hruns
  obtain ⟨hlock, htmp⟩ := lock_and_tmp appendByte none halfWritten s hs
  exact ⟨s, hs, hlock, htmp (by simp [halfWritten, Meets, Tidy])⟩

end Pyleans.FileLock
