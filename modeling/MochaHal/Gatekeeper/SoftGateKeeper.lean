import MochaHal.Lib.Prog
import Mathlib.Data.Set.Function
import Mathlib.Logic.Function.Basic

/-! The software gatekeeper of `gatekeeper/`.  `DoVerify` keeps a salted digest of the
last password it took for a secure user id and looks there before it asks the base
class.  `libgatekeeper` is not in the repository: its `GateKeeper` is a parameter, its
`Enroll` and `Verify` being programs that call the methods `SoftGateKeeper` overrides.

`doVerify_agrees_iff` says exactly when the short cut and the base class agree after a
history of calls. -/

namespace MochaHal.Gatekeeper
open MochaHal.Prog

/-! ## The source -/

/-- A `SizedBuffer`, with its bytes; the length is the length of the list. -/
abbrev SizedBuffer := List UInt8

/-- The bytes of a `password_handle_t`, a packed struct of `libgatekeeper`. -/
abbrev PasswordHandle := List UInt8

structure FastHash where
  salt : UInt64
  digest : Vector UInt8 32
  deriving DecidableEq

structure FailureRecord where
  secure_user_id : UInt64
  last_checked_timestamp : UInt64
  failure_counter : UInt32
  deriving DecidableEq

inductive GatekeeperError
  | ERROR_NONE
  | ERROR_INVALID
  | ERROR_RETRY
  | ERROR_UNKNOWN
  deriving DecidableEq

structure EnrollRequest where
  uid : UInt32
  password_handle : SizedBuffer
  provided_password : SizedBuffer
  enrolled_password : SizedBuffer

structure EnrollResponse where
  error : GatekeeperError
  retry_timeout : UInt32
  enrolled_password_handle : SizedBuffer

structure VerifyRequest where
  uid : UInt32
  challenge : UInt64
  password_handle : SizedBuffer
  provided_password : SizedBuffer

structure VerifyResponse where
  error : GatekeeperError
  retry_timeout : UInt32
  auth_token : SizedBuffer
  request_reenroll : Bool

/-- The overridden methods with a state behind them.  The others (the keys, the
signatures, `IsHardwareBacked`) compute the same from the same arguments each time. -/
inductive Method
  | doVerify (expected_handle : PasswordHandle) (password : SizedBuffer)
  | getRandom (requested_length : Nat)
  | getMillisecondsSinceBoot
  | getFailureRecord (uid : UInt32) (user_id : UInt64)
  | clearFailureRecord (uid : UInt32) (user_id : UInt64)
  | writeFailureRecord (uid : UInt32) (record : FailureRecord)

def Method.Result : Method → Type
  | .doVerify _ _ => Bool
  | .getRandom _ => List UInt8
  | .getMillisecondsSinceBoot => UInt64
  | .getFailureRecord _ _ => FailureRecord
  | .clearFailureRecord _ _ => Bool
  | .writeFailureRecord _ _ => Bool

/-- What the repository uses of `libgatekeeper`: the layout of a handle and the methods
of the class `GateKeeper`. -/
structure GateKeeper where
  user_id : PasswordHandle → UInt64
  set_hardware_backed : PasswordHandle → PasswordHandle
  DoVerify : PasswordHandle → SizedBuffer → Bool
  Enroll : EnrollRequest → Prog Method Method.Result EnrollResponse
  Verify : VerifyRequest → Prog Method Method.Result VerifyResponse

/-- The calls that leave the process: `RAND_pseudo_bytes` into a salt or into a buffer,
and the boot clock, read in milliseconds. -/
inductive SysOp
  | random_salt
  | random_bytes (n : Nat)
  | boot_clock

def SysOp.Ans : SysOp → Type
  | .random_salt => UInt64
  | .random_bytes _ => List UInt8
  | .boot_clock => UInt64

/-- The maps of a `SoftGateKeeper`, with a record of the passwords its device has enrolled
and of the arguments its `DoVerify` was called with. -/
structure Session where
  failure_map_ : UInt32 → FailureRecord
  fast_hash_map_ : UInt64 → Option FastHash
  enrolled : List (PasswordHandle × SizedBuffer)
  verifications : List (PasswordHandle × SizedBuffer)

def start : Session :=
  { failure_map_ := fun _ => ⟨0, 0, 0⟩, fast_hash_map_ := fun _ => none,
    enrolled := [], verifications := [] }

abbrev M := StateT Session (Prog SysOp SysOp.Ans)

/-- The eight bytes of a salt, the lowest first. -/
def saltBytes (salt : UInt64) : List UInt8 :=
  (List.range 8).map fun i => (salt >>> (8 * i).toUInt64).toUInt8

section Source
variable (sha256 : List UInt8 → Vector UInt8 32) (gk : GateKeeper)

def computeFastHash (password : SizedBuffer) (salt : UInt64) : FastHash :=
  { salt := salt, digest := sha256 (saltBytes salt ++ password) }

def verifyFast (fast_hash : FastHash) (password : SizedBuffer) : Bool :=
  (computeFastHash sha256 password fast_hash.salt).digest = fast_hash.digest

/-- Is there an entry for the user id, and is it one of this password? -/
def fastPath (fast_hash_map_ : UInt64 → Option FastHash) (user_id : UInt64)
    (password : SizedBuffer) : Bool :=
  match fast_hash_map_ user_id with
  | some it => verifyFast sha256 it password
  | none => false

def doVerify (expected_handle : PasswordHandle) (password : SizedBuffer) : M Bool := do
  modify fun s => { s with verifications := s.verifications ++ [(expected_handle, password)] }
  let user_id := gk.user_id expected_handle
  let s ← get
  if fastPath sha256 s.fast_hash_map_ user_id password then
    return true
  else if gk.DoVerify expected_handle password then
    let salt ← ask SysOp.random_salt
    modify fun s => { s with
      fast_hash_map_ := Function.update s.fast_hash_map_ user_id
        (some (computeFastHash sha256 password salt)) }
    return true
  else
    return false

def getFailureRecord (uid : UInt32) (user_id : UInt64) : M FailureRecord := do
  let s ← get
  let stored := s.failure_map_ uid
  if user_id ≠ stored.secure_user_id then
    modify fun s => { s with failure_map_ := Function.update s.failure_map_ uid ⟨user_id, 0, 0⟩ }
    return ⟨user_id, 0, 0⟩
  else
    return stored

def clearFailureRecord (uid : UInt32) (user_id : UInt64) : M Bool := do
  modify fun s => { s with failure_map_ := Function.update s.failure_map_ uid ⟨user_id, 0, 0⟩ }
  return true

def writeFailureRecord (uid : UInt32) (record : FailureRecord) : M Bool := do
  modify fun s => { s with failure_map_ := Function.update s.failure_map_ uid record }
  return true

/-- The methods as the base class reaches them. -/
def dispatch : (m : Method) → M m.Result
  | .doVerify h p => doVerify sha256 gk h p
  | .getRandom n => (ask (SysOp.random_bytes n) : M (List UInt8))
  | .getMillisecondsSinceBoot => (ask SysOp.boot_clock : M UInt64)
  | .getFailureRecord uid user_id => getFailureRecord uid user_id
  | .clearFailureRecord uid user_id => clearFailureRecord uid user_id
  | .writeFailureRecord uid record => writeFailureRecord uid record

def EINVAL : Int := 22

/-- The `uint32_t` timeout returned as an `int`. -/
def asInt (retry_timeout : UInt32) : Int := retry_timeout.toInt32.toInt

/-- A pointer with its length; a null pointer is `none`. -/
abbrev Bytes := Option (List UInt8)

/-- `SoftGateKeeperDevice::enroll`; `out` says that both result pointers are given. -/
def enroll (uid : UInt32) (current_password_handle current_password desired_password : Bytes)
    (out : Bool) : M (Int × Option PasswordHandle) := do
  let desired := desired_password.getD []
  if out = false ∨ desired = [] then
    return (-EINVAL, none)
  else
    -- Current password and current password handle go together
    let given := current_password_handle.getD [] ≠ [] ∧ current_password.getD [] ≠ []
    let handle := if given then current_password_handle.getD [] else []
    let current := if given then current_password.getD [] else []
    let response ← interp (dispatch sha256 gk) (gk.Enroll ⟨uid, handle, desired, current⟩)
    if response.error = .ERROR_RETRY then
      return (asInt response.retry_timeout, none)
    else if response.error ≠ .ERROR_NONE then
      return (-EINVAL, none)
    else
      let enrolled := gk.set_hardware_backed response.enrolled_password_handle
      modify fun s => { s with enrolled := s.enrolled ++ [(enrolled, desired)] }
      return (0, some enrolled)

/-- `SoftGateKeeperDevice::verify`, with the token and the flag it hands out. -/
def verify (uid : UInt32) (challenge : UInt64)
    (enrolled_password_handle provided_password : Bytes) :
    M (Int × Option (SizedBuffer × Bool)) := do
  match enrolled_password_handle, provided_password with
  | some handle, some password =>
    let response ← interp (dispatch sha256 gk) (gk.Verify ⟨uid, challenge, handle, password⟩)
    if response.error = .ERROR_RETRY then
      return (asInt response.retry_timeout, none)
    else if response.error ≠ .ERROR_NONE then
      return (-EINVAL, none)
    else
      return (0, some (response.auth_token, response.request_reenroll))
  | _, _ => return (-EINVAL, none)

/-- The calls a client of the device makes. -/
inductive Call
  | enroll (uid : UInt32) (current_password_handle current_password desired_password : Bytes)
      (out : Bool)
  | verify (uid : UInt32) (challenge : UInt64) (enrolled_password_handle provided_password : Bytes)

def Call.exec : Call → M Unit
  | .enroll uid h c d out => do
    let _ ← Gatekeeper.enroll sha256 gk uid h c d out
    pure ()
  | .verify uid ch h p => do
    let _ ← Gatekeeper.verify sha256 gk uid ch h p
    pure ()

def history : List Call → M Unit
  | [] => pure ()
  | c :: cs => do
    c.exec sha256 gk
    history cs

/-- The session after a history, the world answering with `world`. -/
def after (world : Env SysOp SysOp.Ans) (cs : List Call) : Session :=
  (run world 0 (history sha256 gk cs start)).2

end Source

/-! ## What an entry of the cache stands for -/

section
variable {sha256 : List UInt8 → Vector UInt8 32} {gk : GateKeeper}

/-- The password of the last of the calls for `user_id` that `taken` accepts. -/
def lastTaken (gk : GateKeeper) (taken : PasswordHandle × SizedBuffer → Bool)
    (calls : List (PasswordHandle × SizedBuffer)) (user_id : UInt64) : Option SizedBuffer :=
  ((calls.filter fun c => gk.user_id c.1 = user_id ∧ taken c).getLast?).map Prod.snd

theorem lastTaken_append (taken : PasswordHandle × SizedBuffer → Bool)
    (calls : List (PasswordHandle × SizedBuffer)) (c : PasswordHandle × SizedBuffer) (u : UInt64) :
    lastTaken gk taken (calls ++ [c]) u =
      if gk.user_id c.1 = u ∧ taken c then some c.2 else lastTaken gk taken calls u := by
  by_cases h : gk.user_id c.1 = u ∧ taken c
  · simp [lastTaken, List.filter_append, h]
  · simp [lastTaken, List.filter_append, h]

theorem lastTaken_mem {taken : PasswordHandle × SizedBuffer → Bool}
    {calls : List (PasswordHandle × SizedBuffer)} {u : UInt64} {q : SizedBuffer}
    (h : lastTaken gk taken calls u = some q) : ∃ h, (h, q) ∈ calls := by
  simp only [lastTaken, Option.map_eq_some_iff] at h
  obtain ⟨c, hc, rfl⟩ := h
  have hm := List.mem_of_getLast? hc
  exact ⟨c.1, (List.mem_filter.mp hm).1⟩

/-- An entry made for the password that `lastTaken` names, and none where it names none. -/
def Holds (sha256 : List UInt8 → Vector UInt8 32) (entry : Option FastHash) :
    Option SizedBuffer → Prop
  | none => entry = none
  | some q => ∃ salt, entry = some (computeFastHash sha256 q salt)

def accepts (gk : GateKeeper) (c : PasswordHandle × SizedBuffer) : Bool := gk.DoVerify c.1 c.2

/-- The cache follows the calls that the base class accepts. -/
def CacheInv (sha256 : List UInt8 → Vector UInt8 32) (gk : GateKeeper) (s : Session) : Prop :=
  ∀ u, Holds sha256 (s.fast_hash_map_ u) (lastTaken gk (accepts gk) s.verifications u)

/-- No two of the passwords `W` have the same digest under one salt. -/
def CollisionFree (sha256 : List UInt8 → Vector UInt8 32) (W : Set SizedBuffer) : Prop :=
  ∀ salt, Set.InjOn (fun q => sha256 (saltBytes salt ++ q)) W

theorem verifyFast_computeFastHash {W : Set SizedBuffer} (hW : CollisionFree sha256 W)
    {p q : SizedBuffer} (hp : p ∈ W) (hq : q ∈ W) (salt : UInt64) :
    verifyFast sha256 (computeFastHash sha256 q salt) p = true ↔ p = q := by
  rw [verifyFast, decide_eq_true_iff]
  constructor
  · intro h
    exact hW salt hp hq h
  · rintro rfl
    rfl

/-- The fast path takes a password exactly when it is the last one taken for the user id. -/
theorem fastPath_iff {W : Set SizedBuffer} (hW : CollisionFree sha256 W) {s : Session}
    (hinv : CacheInv sha256 gk s) (hs : ∀ c ∈ s.verifications, c.2 ∈ W) {p : SizedBuffer}
    (hp : p ∈ W) (u : UInt64) :
    fastPath sha256 s.fast_hash_map_ u p = true ↔
      lastTaken gk (accepts gk) s.verifications u = some p := by
  have hu := hinv u
  cases hl : lastTaken gk (accepts gk) s.verifications u with
  | none =>
    rw [hl] at hu
    have hnone : s.fast_hash_map_ u = none := hu
    simp [fastPath, hnone]
  | some q =>
    rw [hl] at hu
    obtain ⟨salt, hsome⟩ := hu
    obtain ⟨h, hmem⟩ := lastTaken_mem hl
    have hq : q ∈ W := hs _ hmem
    simp only [fastPath, hsome, verifyFast_computeFastHash hW hp hq, Option.some.injEq]
    exact eq_comm

/-! ## Histories -/

/-- The invariant of a history all of whose passwords are in `W`. -/
def Inv (sha256 : List UInt8 → Vector UInt8 32) (gk : GateKeeper) (W : Set SizedBuffer)
    (s : Session) : Prop :=
  (∀ c ∈ s.verifications, c.2 ∈ W) → CacheInv sha256 gk s

variable {ok : (o : SysOp) → o.Ans → Prop} {W : Set SizedBuffer} {s : Session}

theorem inv_start : Inv sha256 gk W start := fun _ _ => rfl

/-- Only the cache and the calls to `DoVerify` matter. -/
theorem Inv.congr {s s' : Session} (h : Inv sha256 gk W s)
    (hmap : s'.fast_hash_map_ = s.fast_hash_map_) (hcalls : s'.verifications = s.verifications) :
    Inv sha256 gk W s' := by
  unfold Inv CacheInv at h ⊢
  rw [hmap, hcalls]
  exact h

/-- One more call of `DoVerify`: an accepted one leaves its entry, and nothing else changes. -/
theorem Inv.snoc {s s' : Session} {c : PasswordHandle × SizedBuffer} (hinv : Inv sha256 gk W s)
    (hcalls : s'.verifications = s.verifications ++ [c])
    (htaken : c.2 ∈ W → (∀ c ∈ s.verifications, c.2 ∈ W) → accepts gk c →
      Holds sha256 (s'.fast_hash_map_ (gk.user_id c.1)) (some c.2))
    (hothers : ∀ u, ¬ (gk.user_id c.1 = u ∧ accepts gk c) →
      s'.fast_hash_map_ u = s.fast_hash_map_ u) : Inv sha256 gk W s' := by
  intro hs
  rw [hcalls] at hs
  have hc : c.2 ∈ W := hs c (by simp)
  have hold : ∀ c ∈ s.verifications, c.2 ∈ W := fun c' hc' => hs c' (by simp [hc'])
  intro u
  rw [hcalls, lastTaken_append]
  by_cases hu : gk.user_id c.1 = u ∧ accepts gk c
  · rw [if_pos hu, ← hu.1]
    exact htaken hc hold hu.2
  · rw [if_neg hu, hothers u hu]
    exact hinv hold u

/-- **Step of `DoVerify`.** -/
theorem doVerify_inv (hW : CollisionFree sha256 W) (hinv : Inv sha256 gk W s)
    (h : PasswordHandle) (p : SizedBuffer) :
    Post ok (fun r => Inv sha256 gk W r.2) (doVerify sha256 gk h p s) := by
  unfold doVerify
  simp only [post_stateBind, post_modify, post_get]
  apply post_stateIte
  · intro hfast
    apply hinv.snoc rfl
    · -- `p` is the last password taken already
      intro hp hs _
      have hentry := hinv hs (gk.user_id h)
      rw [(fastPath_iff hW (hinv hs) hs hp _).mp hfast] at hentry
      exact hentry
    · intro _ _
      rfl
  · intro _
    apply post_stateIte
    · intro hacc
      simp only [post_stateBind, post_ask, post_modify, post_statePure]
      intro salt _
      apply hinv.snoc rfl
      · intro _ _ _
        exact ⟨salt, by simp⟩
      · intro u hu
        have hne : u ≠ gk.user_id h := fun e => hu ⟨e.symm, hacc⟩
        simp [Function.update_of_ne hne]
    · intro hacc
      apply hinv.snoc rfl
      · intro _ _ h
        exact absurd h hacc
      · intro _ _
        rfl

theorem dispatch_inv (hW : CollisionFree sha256 W) (m : Method) (s : Session)
    (hinv : Inv sha256 gk W s) :
    Post ok (fun r => Inv sha256 gk W r.2) (dispatch sha256 gk m s) := by
  cases m with
  | doVerify h p => exact doVerify_inv hW hinv h p
  | getRandom n => exact fun _ _ => hinv
  | getMillisecondsSinceBoot => exact fun _ _ => hinv
  | getFailureRecord uid user_id =>
    show Post ok _ (getFailureRecord uid user_id s)
    unfold getFailureRecord
    apply post_stateIte
    · intro _
      exact hinv.congr rfl rfl
    · intro _
      exact hinv
  | clearFailureRecord uid user_id => exact hinv.congr rfl rfl
  | writeFailureRecord uid record => exact hinv.congr rfl rfl

theorem exec_inv (hW : CollisionFree sha256 W) (hinv : Inv sha256 gk W s) (c : Call) :
    Post ok (fun r => Inv sha256 gk W r.2) (c.exec sha256 gk s) := by
  cases c with
  | enroll uid h c d out =>
    simp only [Call.exec, enroll, post_stateBind]
    apply post_stateIte
    · intro _
      exact hinv
    · intro _
      simp only [post_stateBind]
      apply (post_interp (dispatch_inv hW) _ hinv).mono
      intro r hr
      apply post_stateIte
      · intro _
        exact hr
      · intro _
        apply post_stateIte
        · intro _
          exact hr
        · intro _
          exact hr.congr rfl rfl
  | verify uid ch h p =>
    simp only [Call.exec, verify, post_stateBind]
    cases h with
    | none => exact hinv
    | some h =>
      cases p with
      | none => exact hinv
      | some p =>
        simp only [post_stateBind]
        apply (post_interp (dispatch_inv hW) _ hinv).mono
        intro r hr
        apply post_stateIte
        · intro _
          exact hr
        · intro _
          apply post_stateIte
          · intro _
            exact hr
          · intro _
            exact hr

theorem history_inv (hW : CollisionFree sha256 W) (cs : List Call) (hinv : Inv sha256 gk W s) :
    Post ok (fun r => Inv sha256 gk W r.2) (history sha256 gk cs s) := by
  induction cs generalizing s with
  | nil => exact hinv
  | cons c cs ih =>
    simp only [history, post_stateBind]
    exact (exec_inv hW hinv c).mono fun r hr => ih hr

theorem after_inv (gk : GateKeeper) (hW : CollisionFree sha256 W) (world : Env SysOp SysOp.Ans) (cs : List Call) :
    Inv sha256 gk W (after sha256 gk world cs) :=
  run_of_post (history_inv hW cs inv_start) world 0

/-- What `DoVerify` returns: the fast path or the base class. -/
theorem doVerify_result (h : PasswordHandle) (p : SizedBuffer) :
    Post ok (fun r => r.1 = (fastPath sha256 s.fast_hash_map_ (gk.user_id h) p || gk.DoVerify h p))
      (doVerify sha256 gk h p s) := by
  unfold doVerify
  simp only [post_stateBind, post_modify, post_get]
  apply post_stateIte
  · intro hf
    simp [hf]
  · intro hf
    apply post_stateIte
    · intro hd
      simp [hd]
    · intro hd
      rw [post_statePure, Bool.eq_false_of_not_eq_true hf, Bool.eq_false_of_not_eq_true hd]
      rfl

theorem run_doVerify (world : Env SysOp SysOp.Ans) (n : Nat) (h : PasswordHandle)
    (p : SizedBuffer) :
    (run world n (doVerify sha256 gk h p s)).1 =
      (fastPath sha256 s.fast_hash_map_ (gk.user_id h) p || gk.DoVerify h p) :=
  run_of_post (doVerify_result h p) world n

end

/-- The passwords a history has shown to `DoVerify`, and one more. -/
def shown (s : Session) (p : SizedBuffer) : Set SizedBuffer :=
  {q | q = p ∨ ∃ c ∈ s.verifications, c.2 = q}

/-- After every history of calls to the device, and for every handle and password, the
short cut and the base class agree unless the last password taken for the handle's user
id, with a handle enrolled for it, is this one and the handle was enrolled for another. -/
theorem doVerify_agrees_iff (sha256 : List UInt8 → Vector UInt8 32) (gk : GateKeeper)
    (world : Env SysOp SysOp.Ans) (cs : List Call) (h : PasswordHandle) (p : SizedBuffer) (n : Nat)
    (hgk : ∀ h p, gk.DoVerify h p = true ↔ (h, p) ∈ (after sha256 gk world cs).enrolled)
    (hsha : CollisionFree sha256 (shown (after sha256 gk world cs) p)) :
    (run world n (doVerify sha256 gk h p (after sha256 gk world cs))).1 = gk.DoVerify h p ↔
      ¬ (lastTaken gk (· ∈ (after sha256 gk world cs).enrolled)
            (after sha256 gk world cs).verifications (gk.user_id h) = some p ∧
          (h, p) ∉ (after sha256 gk world cs).enrolled) := by
  have hinv := after_inv gk hsha world cs
  generalize after sha256 gk world cs = s at *
  have hs : ∀ c ∈ s.verifications, c.2 ∈ shown s p := fun c hc => Or.inr ⟨c, hc, rfl⟩
  have htaken : (fun c => decide (c ∈ s.enrolled)) = accepts gk := by
    funext c
    rw [Bool.eq_iff_iff, decide_eq_true_iff]
    exact (hgk c.1 c.2).symm
  rw [run_doVerify, htaken, ← fastPath_iff hsha (hinv hs) hs (Or.inl rfl), ← hgk]
  cases fastPath sha256 s.fast_hash_map_ (gk.user_id h) p <;> cases gk.DoVerify h p <;> simp

/-! ## Two pins for one user id -/

def pin1 : SizedBuffer := [49, 49, 49, 49]
def pin2 : SizedBuffer := [50, 50, 50, 50]

/-- The `SHA-256` digests of the two salted pins; messages that the samples never
hash are cut at 32 bytes. -/
def sampleSha (m : List UInt8) : Vector UInt8 32 :=
  if m = saltBytes 5 ++ pin1 then
    #v[61, 138, 52, 30, 205, 243, 193, 89, 164, 99, 223, 46, 87, 130, 77, 16, 183, 92, 10, 0, 174,
      190, 116, 194, 206, 237, 46, 201, 18, 238, 106, 188]
  else if m = saltBytes 5 ++ pin2 then
    #v[122, 194, 229, 7, 110, 246, 228, 222, 138, 167, 228, 116, 159, 178, 104, 184, 183, 12, 225,
      169, 235, 68, 195, 64, 194, 214, 96, 91, 104, 238, 16, 66]
  else Vector.ofFn fun i => m.getD i 0

/-- A handle is the flag, the user id and what stands for the signature. -/
def handle1 : PasswordHandle := [1, 7, 101]
def handle2 : PasswordHandle := [1, 7, 102]

/-- A base class that knows the two pins.  As in `libgatekeeper`, enrolling over a handle
asks `DoVerify` for the current password and keeps the user id. -/
def sampleKeeper : GateKeeper where
  user_id h := (h.getD 1 0).toUInt64
  set_hardware_backed h := h.set 0 1
  DoVerify h p := decide ((h, p) ∈ [(handle1, pin1), (handle2, pin2)])
  Enroll rq :=
    let signature : UInt8 := if rq.provided_password = pin1 then 101 else 102
    if rq.password_handle = [] then
      .call (.getRandom 1) fun (r : List UInt8) => .ret ⟨.ERROR_NONE, 0, [0, r.getD 0 0, signature]⟩
    else
      .call (.doVerify rq.password_handle rq.enrolled_password) fun (b : Bool) =>
        if b then .ret ⟨.ERROR_NONE, 0, [0, rq.password_handle.getD 1 0, signature]⟩
        else .ret ⟨.ERROR_INVALID, 0, []⟩
  Verify rq :=
    .call (.doVerify rq.password_handle rq.provided_password) fun (b : Bool) =>
      if b then .ret ⟨.ERROR_NONE, 0, [], false⟩ else .ret ⟨.ERROR_INVALID, 0, [], false⟩

def sampleWorld : Env SysOp SysOp.Ans := fun _ o =>
  match o with
  | .random_salt => (5 : UInt64)
  | .random_bytes n => List.replicate n (7 : UInt8)
  | .boot_clock => (0 : UInt64)

/-- The first pin is enrolled and used, then replaced by the second. -/
def changedPin : List Call :=
  [.enroll 0 none none (some pin1) true, .verify 0 0 (some handle1) (some pin1),
    .enroll 0 (some handle1) (some pin1) (some pin2) true]

/-- The same, and the second pin is used. -/
def usedPin : List Call := changedPin ++ [.verify 0 0 (some handle2) (some pin2)]

theorem saltBytes_length (salt : UInt64) : (saltBytes salt).length = 8 := by
  simp [saltBytes]

theorem sampleSha_ne (salt : UInt64) :
    sampleSha (saltBytes salt ++ pin1) ≠ sampleSha (saltBytes salt ++ pin2) := by
  by_cases h5 : saltBytes salt = saltBytes 5
  · rw [h5]
    decide
  · have hno (q r : List UInt8) : saltBytes salt ++ q ≠ saltBytes 5 ++ r := by
      intro h
      apply h5
      exact List.append_inj_left h (by rw [saltBytes_length, saltBytes_length])
    -- the messages differ in the byte after the salt
    have hbyte (x : UInt8) (q : List UInt8) : (saltBytes salt ++ x :: q).getD 8 0 = x := by
      simp [saltBytes_length]
    have hcut (q : SizedBuffer) :
        sampleSha (saltBytes salt ++ q) = Vector.ofFn fun i => (saltBytes salt ++ q).getD i 0 := by
      rw [sampleSha, if_neg (hno q _), if_neg (hno q _)]
    intro h
    rw [hcut, hcut] at h
    have h8 := congrArg (fun v : Vector UInt8 32 => v[8]) h
    simp only [Vector.getElem_ofFn, pin1, pin2, hbyte] at h8
    cases h8

theorem sampleSha_collisionFree : CollisionFree sampleSha {pin1, pin2} := by
  intro salt
  rintro p (rfl | rfl) q (rfl | rfl) h
  · rfl
  · exact absurd h (sampleSha_ne salt)
  · exact absurd h.symm (sampleSha_ne salt)
  · rfl

/-- What the base class accepts is what a history has enrolled. -/
theorem sampleKeeper_accepts {s : Session} (hs : s.enrolled = [(handle1, pin1), (handle2, pin2)])
    (h : PasswordHandle) (p : SizedBuffer) :
    sampleKeeper.DoVerify h p = true ↔ (h, p) ∈ s.enrolled := by
  rw [hs]
  exact decide_eq_true_iff

theorem shown_pins {s : Session} {p : SizedBuffer} (hp : p = pin1 ∨ p = pin2)
    (hs : ∀ c ∈ s.verifications, c.2 = pin1 ∨ c.2 = pin2) :
    CollisionFree sampleSha (shown s p) := by
  intro salt
  apply (sampleSha_collisionFree salt).mono
  rintro q (rfl | ⟨c, hc, rfl⟩)
  · exact hp
  · exact hs c hc

/-- Once the second pin was used, the first one is turned away by both. -/
theorem doVerify_agrees_after_use :
    (run sampleWorld 0 (doVerify sampleSha sampleKeeper handle2 pin1
        (after sampleSha sampleKeeper sampleWorld usedPin))).1 = sampleKeeper.DoVerify handle2 pin1 := by
  apply (doVerify_agrees_iff sampleSha sampleKeeper sampleWorld usedPin handle2 pin1 0
    (sampleKeeper_accepts rfl) (shown_pins (.inl rfl) (by decide))).mpr
  decide

/-- With a fresh handle of the second pin, the replaced first pin is still accepted. -/
theorem replaced_pin_accepted :
    (∀ h p, sampleKeeper.DoVerify h p = true ↔
        (h, p) ∈ (after sampleSha sampleKeeper sampleWorld changedPin).enrolled) ∧
      CollisionFree sampleSha (shown (after sampleSha sampleKeeper sampleWorld changedPin) pin1) ∧
      (run sampleWorld 0 (doVerify sampleSha sampleKeeper handle2 pin1
          (after sampleSha sampleKeeper sampleWorld changedPin))).1 = true ∧
      sampleKeeper.DoVerify handle2 pin1 = false := by
  constructor
  · exact sampleKeeper_accepts rfl
  constructor
  · exact shown_pins (.inl rfl) (by decide)
  constructor
  · decide
  · decide

end MochaHal.Gatekeeper
