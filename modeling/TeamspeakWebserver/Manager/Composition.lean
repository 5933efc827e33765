import TeamspeakWebserver.Interruptible.Logic
import TeamspeakWebserver.Manager.Frame

/-! What is left to show of an assertion for the whole manager to keep it. -/

namespace TeamspeakWebserver.Manager

open Interruptible Prog Rules Sessions

def Op.ofService : Op → Bool
  | .getListenSock | .getPipefd _ | .readMod _ | .write _ _ | .setStatus .stopped => true
  | _ => false

def Op.ofSession : Op → Bool
  | .malloc | .accept | .linkSession _ | .incSessions => true
  | .setSessionsDirty b => b
  | .closeComm _ | .unlinkSession _ | .decSessions | .getSession _ | .read _ => true
  | op => op.ofService

abbrev Op.Session (op : Op) : Prop := op.ofSession = true

lemma startNewSession_uses : startNewSession.Uses Op.Session := by
  refine ⟨rfl, fun b => ?_⟩
  cases b with
  | false => trivial
  | true =>
    refine ⟨rfl, fun r => ?_⟩
    cases r with
    | none => trivial
    | some fd => exact ⟨rfl, fun _ => ⟨rfl, fun _ => ⟨rfl, fun _ => trivial⟩⟩⟩

lemma closeSession_uses (fd : Int) : (closeSession fd).Uses Op.Session :=
  ⟨rfl, fun _ => ⟨rfl, fun _ => ⟨rfl, fun _ => ⟨rfl, fun _ => trivial⟩⟩⟩⟩

def Op.on (m : Mod) : Op → Bool
  | .isRunning m' | .isParked m' | .pipe m' | .setPipefd m' _ | .fork m' _ => m' = m
  | .setState m' _ | .setPid m' _ | .kill m' _ | .closePipefd m' => m' = m
  | .intrSave | .intrRestore _ | .closeFd _ => true
  | .setModsDirty b => b
  | _ => false

abbrev Op.On (m : Mod) (op : Op) : Prop := op.on m = true

lemma Op.on_self {m : Mod} {op : Op} (h : op.on m = decide (m = m)) : op.On m := by
  simp [Op.On, h]

lemma doModuleInit_uses (m : Mod) : (doModuleInit m).Uses (Op.On m) := by
  refine ⟨Op.on_self rfl, fun (r : Bool) => ?_⟩
  cases r with
  | true => trivial
  | false =>
  refine ⟨Op.on_self rfl, fun (r : Option (Int × Int)) => ?_⟩
  cases r with
  | none => trivial
  | some p =>
  obtain ⟨r, w⟩ := p
  refine ⟨Op.on_self rfl, fun _ => ⟨rfl, fun _ => ⟨Op.on_self rfl, fun (q : Option Int) => ?_⟩⟩⟩
  cases q with
  | none => exact ⟨rfl, fun _ => ⟨Op.on_self rfl, fun _ => ⟨rfl, fun _ => ⟨rfl, fun _ => trivial⟩⟩⟩⟩
  | some p =>
    exact ⟨Op.on_self rfl, fun _ => ⟨Op.on_self rfl, fun _ => ⟨rfl, fun _ => ⟨rfl, fun _ => ⟨rfl, fun _ => trivial⟩⟩⟩⟩⟩

def Op.ends (m : Mod) : Op → Bool
  | .isRunning m' | .kill m' _ | .setState m' .dead | .setPid m' _ => m' = m
  | _ => false

abbrev Op.Ends (m : Mod) (op : Op) : Prop := op.ends m = true

lemma endChild_uses (m : Mod) : (endChild m).Uses (Op.Ends m) := by
  have hm {op : Op} (h : op.ends m = decide (m = m)) : op.Ends m := by simp [Op.Ends, h]
  refine ⟨hm rfl, fun (r : Bool) => ?_⟩
  cases r with
  | false => trivial
  | true =>
  refine ⟨hm rfl, fun (r : Int) => ?_⟩
  have hdead : Uses (Op.Ends m) (do
      stmt (.setState m .dead)
      stmt (.setPid m (-1))) := ⟨hm rfl, fun _ => ⟨hm rfl, fun _ => trivial⟩⟩
  change Uses _ (if r ≠ 0 then _ else _ : Code Unit)
  split
  · exact ⟨hm rfl, fun _ => hdead⟩
  · exact hdead

lemma Op.Ends.on {m : Mod} {op : Op} (h : op.Ends m) : op.On m := by
  cases op with
  | setState m' st => cases st <;> first | exact h | cases h
  | _ => first | exact h | cases h

lemma doModuleExit_uses (m : Mod) : (doModuleExit m).Uses (Op.On m) := by
  refine ⟨Op.on_self rfl, fun (r : Bool) => ?_⟩
  cases r with
  | true => trivial
  | false =>
  refine ⟨rfl, fun _ => ((endChild_uses m).mono fun _ => Op.Ends.on).bind fun _ => ?_⟩
  exact ⟨rfl, fun _ => ⟨rfl, fun _ => ⟨Op.on_self rfl, fun _ => ⟨Op.on_self rfl, fun _ => ⟨Op.on_self rfl,
    fun _ => trivial⟩⟩⟩⟩⟩

def Op.ofSetup : Op → Bool
  | .numSessions | .getPid _ | .calloc _ | .getListenSock | .storePollfd _ _ _ => true
  | .sessionFds | .getPipefd _ | .exit => true
  | _ => false

abbrev Op.Setup (op : Op) : Prop := op.ofSetup = true

lemma countPids_uses (ms : List Mod) (len : ℕ) : (countPids ms len).Uses Op.Setup := by
  induction ms generalizing len with
  | nil => trivial
  | cons m ms ih => exact ⟨rfl, fun r => ih _⟩

lemma storeSessions_uses (len : ℕ) (fds p : List Int) :
    (storeSessions len fds p).Uses Op.Setup := by
  induction fds generalizing p with
  | nil => trivial
  | cons fd fds ih => exact ⟨rfl, fun r => ih _⟩

lemma storePipes_uses (len : ℕ) (ms : List Mod) (p : List Int) :
    (storePipes len ms p).Uses Op.Setup := by
  induction ms generalizing p with
  | nil => trivial
  | cons m ms ih =>
    refine ⟨rfl, fun (fd : Int) => ?_⟩
    change (if 0 < fd then _ else _ : Code (List Int)).Uses _
    split
    · exact ⟨rfl, fun _ => ih _⟩
    · exact ih _

lemma setupPollFds_uses : setupPollFds.Uses Op.Setup := by
  refine ⟨rfl, fun n => (countPids_uses _ _).bind fun len => ⟨rfl, fun b => ?_⟩⟩
  cases b with
  | false => exact ⟨rfl, fun r => nomatch r⟩
  | true =>
    refine ⟨rfl, fun sock => ⟨rfl, fun _ => ⟨rfl, fun fds => ?_⟩⟩⟩
    exact (storeSessions_uses _ _ _).bind fun p => (storePipes_uses _ _ _).bind fun _ => trivial

def Op.ofLoop : Op → Bool
  | .loopTest | .modsDirty | .getSessionsDirty | .pollEnter _ _ | .pollReturn _ => true
  | _ => false

abbrev blocked : SigSet := ⟨true, true⟩

variable {σ ι ε : Type} {R : Rules Op.Res σ ι ε} {J : σ → Prop} {K : Int → σ → Prop}

/-- `J` is kept while descriptors are served, with `K fd` from the lookup of a session on. -/
structure Served {σ ι ε : Type} (R : Rules Op.Res σ ι ε) (J : σ → Prop)
    (K : Int → σ → Prop) : Prop where
  service : ∀ op : Op, op.ofService = true → R.Keeps J op
  accept : R.Valid J startNewSession fun _ => J
  find : ∀ fd, R.Atomic (.getSession fd) J fun b s => J s ∧ (b = true → K fd s)
  read : ∀ fd, R.Atomic (.read fd) (K fd) fun _ => K fd
  close : ∀ fd, R.Valid (K fd) (closeSession fd) fun _ => J
  forget : ∀ fd s, K fd s → J s
  command : ∀ cmd m errv, R.Valid J (runCommand cmd m errv) fun _ => J

structure Looped {σ ι ε : Type} (R : Rules Op.Res σ ι ε) (J : σ → Prop)
    (K : Int → σ → Prop) : Prop extends Served R J K where
  holds : R.Holds none J
  loop : ∀ op : Op, op.ofLoop = true → R.Keeps J op
  setup : R.Valid J setupPollFds fun _ => J
  cleanup : R.Valid J managerCleanupDirt fun _ => J

namespace Served

variable (h : Served R J K)
include h

lemma runArguments (cmd : ManagerCmds) (args : List Bytes) (errv : Int) :
    R.Valid J (runArguments cmd args errv) fun _ => J := by
  induction args generalizing errv with
  | nil => exact fun _ hs => hs
  | cons arg args ih =>
    rw [Manager.runArguments]
    cases getMod arg with
    | none => exact ih errv
    | some m => exact (h.command cmd m errv).bind fun errv => ih errv

lemma managerProcessInput (input : Bytes) :
    R.Valid J (managerProcessInput input) fun _ => J := by
  have ha (cmd : ManagerCmds) : R.Valid J (do
      if space ∉ input then return ascii "No argument given."
      let errv ← Manager.runArguments cmd (arguments input) 1
      return if errv = 0 then ascii "OK" else ascii "FAIL") fun _ => J := by
    split
    · exact fun _ hs => hs
    · exact (h.runArguments cmd _ 1).bind fun _ _ hs => hs
  rw [Manager.managerProcessInput]
  cases parseCommand input with
  | none => exact fun _ hs => hs
  | shutdown => exact .act (h.service _ rfl) fun _ _ hs => hs
  | restartMod => exact ha _
  | disableMod => exact ha _
  | enableMod => exact ha _

lemma afterRead (fd : Int) (o : Outcome) : R.Valid (K fd) (afterRead fd o) fun _ => J := by
  cases o with
  | close => exact h.close fd
  | wait => exact fun s hs => h.forget fd s hs
  | body => exact fun s hs => h.forget fd s hs
  | command input =>
    refine ((h.managerProcessInput input).weaken (h.forget fd)).bind fun resp => ?_
    exact .call (h.service _ rfl)

lemma processSession (fd : Int) : R.Valid (K fd) (processSession fd) fun _ => J := by
  refine .act (h.read fd) fun (o : Outcome) => ?_
  cases o with
  | body => exact .act (h.read fd) (h.afterRead fd)
  | close => exact h.afterRead fd .close
  | wait => exact h.afterRead fd .wait
  | command input => exact h.afterRead fd (.command input)

lemma tryServiceModule (fd : Int) (ms : List Mod) :
    R.Valid J (tryServiceModule fd ms) fun _ => J := by
  induction ms with
  | nil => exact fun _ hs => hs
  | cons m ms ih =>
    refine .act (h.service _ rfl) fun (r : Int) => ?_
    change R.Valid J (if fd = r then _ else _ : Code Bool) _
    split
    · exact .act (h.service _ rfl) fun _ _ hs => hs
    · exact ih

lemma serviceFd (fd : Int) : R.Valid J (serviceFd fd) fun _ => J := by
  refine .act (h.service _ rfl) fun (sock : Int) => ?_
  change R.Valid J (if fd = sock then _ else _ : Code Unit) _
  split
  · exact h.accept
  refine (h.tryServiceModule fd mods).bind fun b => ?_
  cases b with
  | true => exact fun _ hs => hs
  | false =>
    refine .act (h.find fd) fun (b : Bool) => ?_
    cases b with
    | false => exact fun _ hs => hs.1
    | true => exact (h.processSession fd).weaken fun s hs => hs.2 rfl

lemma serviceFds (fds : List (Int × Bool)) (nready : Int) :
    R.Valid J (serviceFds fds nready) fun _ => J := by
  induction fds generalizing nready with
  | nil => exact fun _ hs => hs
  | cons p fds ih =>
    obtain ⟨fd, pollin⟩ := p
    rw [Manager.serviceFds]
    split
    · cases pollin with
      | false => exact ih nready
      | true => exact (h.serviceFd fd).bind fun _ => ih _
    · exact fun _ hs => hs

end Served

/-- One turn of the main loop, told by what is known between the tests and `poll()`. -/
lemma loopBody_valid {fds : List Int × ℕ} {I A B C D E F : σ → Prop}
    {Q : ((List Int × ℕ) ⊕ Unit) → σ → Prop}
    (htest : R.Atomic .loopTest I fun b s => cond b (A s) (Q (.inr ()) s))
    (hmods : R.Atomic .modsDirty A fun b s => cond b (E s) (B s))
    (hsessions : R.Atomic .getSessionsDirty B fun b s => cond b (E s) (C s))
    (hclean : R.Valid E managerCleanupDirt fun _ => E)
    (hsetup : R.Valid E setupPollFds fun p => Q (.inl p))
    (henter : R.Atomic (.pollEnter fds.1 fds.2) C fun _ => D)
    (hreturn : R.Atomic (.pollReturn fds.2) D fun _ => F)
    (hserve : ∀ es n, R.Valid F (serviceFds es n) fun _ => F) (hF : ∀ s, F s → Q (.inl fds) s) :
    R.Valid I (loopBody fds) Q := by
  have hdirt : R.Valid E (managerCleanupDirt.bind fun _ => setupPollFds.bind fun p =>
      .ret (.inl p)) Q := hclean.bind fun _ => hsetup.bind fun _ _ hs => hs
  refine .act htest fun (b : Bool) => ?_
  cases b with
  | false => exact fun _ hs => hs
  | true =>
  refine .act hmods fun (b : Bool) => ?_
  cases b with
  | true => exact hdirt
  | false =>
  refine .act hsessions fun (b : Bool) => ?_
  cases b with
  | true => exact hdirt
  | false =>
  refine .act henter fun _ => .act hreturn fun (r : Int × List Bool) => ?_
  change R.Valid F (if 0 < r.1 then _ else _ : Code ((List Int × ℕ) ⊕ Unit)) _
  split
  · exact (hserve _ _).bind fun _ => hF
  · exact hF

namespace Looped

variable (h : Looped R J K)
include h

lemma loopBody (fds : List Int × ℕ) : R.Valid J (loopBody fds) fun _ => J := by
  have hloop {op : Op} (ho : op.ofLoop = true) {Q : op.Res → σ → Prop}
      (hQ : ∀ r s, J s → Q r s) : R.Atomic op J Q := (h.loop op ho).strengthen hQ
  apply loopBody_valid (hloop rfl ?_) (hloop rfl ?_) (hloop rfl ?_) h.cleanup h.setup
    (h.loop _ rfl) (h.loop _ rfl) h.serviceFds fun _ hs => hs
  all_goals exact fun b s hs => by cases b <;> exact hs

lemma startManagerLoop {Q : Unit → σ → Prop} (hstop : R.Valid J shutdownManager Q) :
    R.Valid J startManagerLoop Q := by
  refine h.setup.bind fun fds => Valid.bind (Q := fun _ => J) ?_ fun _ => hstop
  exact .iterate (fun _ => h.holds) (fun fds => (h.loopBody fds).strengthen
    fun r s hs => by cases r <;> exact hs) fds

end Looped

lemma shutdownManager_valid {J' : σ → Prop} (hsave : R.Atomic .intrSave J fun _ => J')
    (hclose : R.Keeps J' .closeSessionHandler) (hlisten : R.Keeps J' .closeListen)
    (hleave : R.Keeps J' .exit) (hexit : ∀ m, R.Valid J' (doModuleExit m) fun _ => J') :
    R.Valid J shutdownManager fun _ => J' := by
  refine .act hsave fun _ => .act hclose fun _ => ?_
  refine (Valid.each fun m _ => hexit m).bind fun _ => ?_
  exact .act hlisten fun _ => .act hleave fun r => nomatch r

lemma main_valid {J₀ : σ → Prop} {Q : Unit → σ → Prop}
    (hinit : ∀ m, R.Valid J₀ (doModuleInit m) fun _ => J₀)
    (hset : R.Atomic (.setStatus .running) J₀ fun _ => J)
    (hloop : R.Valid J startManagerLoop Q) (bot server : Bool) :
    R.Valid J₀ (main bot server) Q := by
  have hserver : R.Valid J₀ (earlyModuleStartup false server) fun _ => J₀ := by
    cases server with
    | false => exact fun _ hs => hs
    | true => exact (hinit .tsWebserver).bind fun _ _ hs => hs
  have hearly : R.Valid J₀ (earlyModuleStartup bot server) fun _ => J₀ := by
    cases bot with
    | false => exact hserver
    | true => exact (hinit .tsBot).bind fun _ => hserver
  exact hearly.bind fun _ => .act hset fun _ => hloop

section Modules

variable {m : Mod} {A I E F O D : σ → Prop}

lemma runCommand_valid (hreq : R.Atomic (.note (.requested m)) J fun _ => A)
    (hexit : R.Valid A (doModuleExit m) fun _ => A) (hinit : R.Valid A (doModuleInit m) fun _ => J)
    (hstop : R.Valid J (doModuleExit m) fun _ => D)
    (hdis : R.Atomic (.note (.disabled m)) D fun _ => J) (cmd : ManagerCmds) (errv : Int) :
    R.Valid J (runCommand cmd m errv) fun _ => J := by
  cases cmd with
  | none => exact fun _ hs => hs
  | shutdown => exact fun _ hs => hs
  | restartMod => exact .act hreq fun _ => hexit.bind fun _ => hinit
  | disableMod => exact hstop.bind fun _ => .act hdis fun _ _ hs => hs
  | enableMod => exact .act hreq fun _ => hinit

section Blocked

variable {P L : σ → Prop}

lemma doModuleExit_blocked
    (hparked : R.Atomic (.isParked m) P fun b s => P s ∧ (b = true → D s))
    (hsave : R.Atomic .intrSave P fun fl s => P s ∧ fl = blocked)
    (hrestore : R.Keeps P (.intrRestore blocked))
    (hend : ∀ op : Op, op.ends m = true → R.Keeps P op) (hJ : R.Holds none P)
    (hdirt : R.Keeps P (.setModsDirty true)) (hclose : R.Keeps P (.closePipefd m))
    (hpipe : R.Keeps P (.setPipefd m (-1)))
    (hdone : R.Atomic (.setState m .exited) P fun _ => D) :
    R.Valid P (doModuleExit m) fun _ => D := by
  refine .act hparked fun (b : Bool) => ?_
  cases b with
  | true => exact fun _ hs => hs.2 rfl
  | false =>
  refine Valid.weaken (A := P) ?_ fun s hs => hs.1
  refine .act hsave fun (fl : SigSet) => .of_fact ?_
  rintro rfl
  refine (Valid.of_uses hJ ((endChild_uses m).mono hend)).bind fun _ => ?_
  refine .act hdirt fun _ => .act hrestore fun _ => ?_
  exact .act hclose fun _ => .act hpipe fun _ => .call hdone

lemma doModuleInit_blocked
    (hkeep : ∀ op : Op, op.on m = true → op.writesMask = false → (∀ fl, op ≠ .fork m fl) →
      R.Keeps P op)
    (hsave : R.Atomic .intrSave P fun fl s => P s ∧ fl = blocked)
    (hrestore : R.Keeps P (.intrRestore blocked))
    (hfork : ∀ fl, R.Atomic (.fork m fl) P fun r s => r.elim (P s) fun _ => L s)
    (hrun : R.Atomic (.setState m .running) L fun _ => O) (hpid : ∀ p, R.Keeps O (.setPid m p))
    (hrestore' : R.Keeps O (.intrRestore blocked)) (hclose : ∀ fd, R.Keeps O (.closeFd fd))
    (hdirt : R.Keeps O (.setModsDirty true)) :
    R.Valid P (doModuleInit m) fun r s => if r = 0 then O s else P s := by
  have hon {op : Op} (h : op.on m = decide (m = m)) (hm : op.writesMask = false)
      (hf : ∀ fl, op ≠ .fork m fl) : R.Keeps P op := hkeep op (by simp [h]) hm hf
  have hfd (fd : Int) : R.Keeps P (.closeFd fd) := hkeep _ rfl rfl (by simp)
  refine .act (hon rfl rfl (by simp)) fun (b : Bool) => ?_
  cases b with
  | true => exact fun _ hs => hs
  | false =>
  refine .act (hon rfl rfl (by simp)) fun (r : Option (Int × Int)) => ?_
  cases r with
  | none => exact fun _ hs => hs
  | some p =>
  obtain ⟨r, w⟩ := p
  refine .act (hon rfl rfl (by simp)) fun _ => ?_
  refine .act hsave fun (fl : SigSet) => .of_fact ?_
  rintro rfl
  refine .act (hfork _) fun (q : Option Int) => ?_
  cases q with
  | none =>
    refine .act hrestore fun _ => .act (hon rfl rfl (by simp)) fun _ => ?_
    exact .act (hfd r) fun _ => .act (hfd w) fun _ _ hs => hs
  | some p =>
    refine .act hrun fun _ => .act (hpid p) fun _ => .act hrestore' fun _ => ?_
    exact .act (hclose w) fun _ => .act hdirt fun _ _ hs => hs

end Blocked

lemma retry_valid {B : UInt32 → σ → Prop} (hexit : R.Valid I (doModuleExit m) fun _ => E)
    (hbump : R.Atomic (.bumpFails m) E B) (hB : ∀ r s, maxFailForStop ≤ r → B r s → O s)
    (hinit : ∀ r, r < maxFailForStop →
      R.Valid (B r) (doModuleInit m) fun r s => if r = 0 then O s else F s)
    (hfail : R.Atomic (.note (.relaunchFailed m)) F fun _ => I) :
    R.Valid I (retry m) (Sum.elim (fun _ => I) fun _ => O) := by
  refine hexit.bind fun _ => .act hbump fun (r : UInt32) => ?_
  change R.Valid (B r) (if r < maxFailForStop then _ else _ : Code (Unit ⊕ Unit)) _
  split
  case isTrue hr =>
    refine (hinit r hr).bind fun r => ?_
    by_cases hr : r = 0
    · simp only [hr, if_true]
      exact fun _ hs => hs
    · simp only [hr, if_false]
      exact .act hfail fun _ _ hs => hs
  case isFalse hr => exact fun s hs => hB r s (UInt32.not_lt.mp hr) hs

lemma restartMod_valid (hneeds : R.Atomic (.needsRestart m) J fun b s => J s ∧ (b = true → A s))
    (hstatus : ∀ st, R.Keeps A (.statusIs st)) (hA : ∀ s, A s → J s)
    (hclear : R.Atomic (.clearNeedsRestart m) A fun _ => J)
    (hnote : R.Atomic (.note (.retrying m)) A fun _ => I) (hI : R.Holds none I)
    (hretry : R.Valid I (retry m) (Sum.elim (fun _ => I) fun _ => O))
    (hdone : R.Atomic (.clearNeedsRestart m) O fun _ => J) :
    R.Valid J (restartMod m) fun _ => J := by
  refine .act hneeds fun (b : Bool) => ?_
  cases b with
  | false => exact fun _ hs => hs.1
  | true =>
    refine Valid.weaken (A := A) ?_ fun s hs => hs.2 rfl
    refine .act (hstatus _) fun (b : Bool) => ?_
    cases b with
    | true => exact .act hclear fun _ _ hs => hs
    | false =>
      refine .act (hstatus _) fun (b : Bool) => ?_
      cases b with
      | true => exact hA
      | false =>
        refine .act hnote fun _ => ?_
        change R.Valid I ((iterate (fun _ => retry m) ()).bind fun _ =>
          .act (.clearNeedsRestart m) fun _ => .ret true) _
        refine Valid.bind (Q := fun _ => O) ?_ fun _ => .act hdone fun _ _ hs => hs
        exact .iterate (I := fun _ => I) (fun _ => hI) (fun _ => hretry) ()

lemma restartEach_valid (h : ∀ m, R.Valid J (restartMod m) fun _ => J) (ms : List Mod) :
    R.Valid J (restartEach ms) fun _ => J := by
  induction ms with
  | nil => exact fun _ hs => hs
  | cons m ms ih =>
    refine (h m).bind fun b => ?_
    cases b with
    | false => exact fun _ hs => hs
    | true => exact ih

lemma restartMods_valid {B : SigSet → σ → Prop} (hsave : R.Atomic .intrSave J B)
    (hmod : ∀ flags m, R.Valid (B flags) (restartMod m) fun _ => B flags)
    (hdirt : ∀ flags, R.Keeps (B flags) (.setModsDirty false))
    (hrestore : ∀ flags, R.Atomic (.intrRestore flags) (B flags) fun _ => J) :
    R.Valid J restartMods fun _ => J := by
  refine .act hsave fun (flags : SigSet) => (restartEach_valid (hmod flags) mods).bind fun _ => ?_
  exact .act (hdirt flags) fun _ => .call (hrestore flags)

lemma managerCleanupDirt_valid {B : SigSet → σ → Prop} (hsave : R.Atomic .intrSave J B)
    (hrestart : ∀ flags, R.Valid (B flags) restartMods fun _ => B flags)
    (hdirt : ∀ flags, R.Keeps (B flags) (.setSessionsDirty false))
    (hrestore : ∀ flags, R.Atomic (.intrRestore flags) (B flags) fun _ => J) :
    R.Valid J managerCleanupDirt fun _ => J := by
  refine .act hsave fun (flags : SigSet) => (hrestart flags).bind fun _ => ?_
  exact .act (hdirt flags) fun _ => .call (hrestore flags)

def Op.ofRestart : Op → Bool
  | .needsRestart _ | .statusIs _ | .clearNeedsRestart _ | .bumpFails _ => true
  | .intrSave | .intrRestore _ | .setModsDirty _ => true
  | .note e => e ≠ .terminated
  | _ => false

variable (hJ : R.Holds none J) (hkeep : ∀ op : Op, op.ofRestart = true → R.Keeps J op)
  (hinit : ∀ m, R.Valid J (doModuleInit m) fun _ => J)
  (hexit : ∀ m, R.Valid J (doModuleExit m) fun _ => J)
include hkeep hinit hexit

lemma runCommand_of_keeps (cmd : ManagerCmds) (m : Mod) (errv : Int) :
    R.Valid J (runCommand cmd m errv) fun _ => J :=
  runCommand_valid (hkeep _ rfl) (hexit m) (hinit m) (hexit m) (hkeep _ rfl) cmd errv

include hJ in
lemma restartMods_of_keeps : R.Valid J restartMods fun _ => J := by
  refine restartMods_valid (B := fun _ => J) (hkeep _ rfl) (fun _ m => ?_)
    (fun _ => hkeep _ rfl) fun _ => hkeep _ rfl
  refine restartMod_valid (A := J) (I := J) (O := J)
    ((hkeep (.needsRestart m) rfl).strengthen fun r s hs => ⟨hs, fun _ => hs⟩)
    (fun _ => hkeep _ rfl) (fun _ hs => hs) (hkeep _ rfl) (hkeep _ rfl) hJ ?_ (hkeep _ rfl)
  exact retry_valid (hexit m) (hkeep _ rfl) (fun _ _ _ hs => hs)
    (fun _ _ => (hinit m).strengthen fun r s hs => by split <;> exact hs) (hkeep _ rfl)

end Modules

lemma served_of_session (hJ : R.Holds none J) (hsession : ∀ op : Op, op.Session → R.Keeps J op)
    (hcmd : ∀ cmd m errv, R.Valid J (runCommand cmd m errv) fun _ => J) :
    Served R J fun _ => J where
  service op h := hsession op (by cases op <;> first | rfl | exact h | cases h)
  accept := .of_uses hJ (startNewSession_uses.mono hsession)
  find fd := (hsession (.getSession fd) rfl).strengthen fun r s hs => ⟨hs, fun _ => hs⟩
  read fd := hsession _ rfl
  close fd := .of_uses hJ ((closeSession_uses fd).mono hsession)
  forget _ _ hs := hs
  command := hcmd

section Plain

def Op.ofModule : Op → Bool
  | .isRunning _ | .isParked _ | .pipe _ | .setPipefd _ _ | .fork _ _ | .setState _ _ => true
  | .setPid _ _ | .closeFd _ | .kill _ _ | .closePipefd _ | .clearNeedsRestart _ => true
  | .bumpFails _ | .intrSave | .intrRestore _ | .note _ => true
  | _ => false

abbrev Op.Plain (op : Op) : Prop := op.ofModule = false

variable (hJ : R.Holds none J) (hplain : ∀ op : Op, op.Plain → R.Keeps J op)
include hJ hplain

lemma looped_of_plain (hcmd : ∀ cmd m errv, R.Valid J (runCommand cmd m errv) fun _ => J)
    (hclean : R.Valid J managerCleanupDirt fun _ => J) : Looped R J fun _ => J where
  toServed := served_of_session hJ (fun op h => hplain op (by
    cases op <;> first | rfl | cases h)) hcmd
  holds := hJ
  loop op h := hplain op (by cases op <;> first | rfl | cases h)
  setup := .of_uses hJ (setupPollFds_uses.mono fun op h => hplain op (by
    cases op <;> first | rfl | cases h))
  cleanup := hclean

lemma main_of_plain {J₀ : σ → Prop} (hinit : ∀ m, R.Valid J₀ (doModuleInit m) fun _ => J₀)
    (hset : R.Atomic (.setStatus .running) J₀ fun _ => J)
    (hcmd : ∀ cmd m errv, R.Valid J (runCommand cmd m errv) fun _ => J)
    (hmask : R.Keeps J .intrSave) (hmask' : ∀ flags, R.Keeps J (.intrRestore flags))
    (hrestart : R.Valid J restartMods fun _ => J)
    (hexit : ∀ m, R.Valid J (doModuleExit m) fun _ => J) (bot server : Bool) :
    R.Valid J₀ (main bot server) fun _ => J := by
  have hclean : R.Valid J managerCleanupDirt fun _ => J :=
    managerCleanupDirt_valid hmask (fun _ => hrestart) (fun _ => hplain _ rfl) hmask'
  have hstop : R.Valid J shutdownManager fun _ => J :=
    shutdownManager_valid hmask (hplain _ rfl) (hplain _ rfl) (hplain _ rfl) hexit
  exact main_valid hinit hset ((looped_of_plain hJ hplain hcmd hclean).startManagerLoop hstop)
    bot server

end Plain

end TeamspeakWebserver.Manager
