import Sv2P2pool.Runs

/-! # Payout Binding

    `handle_allocate_mining_job_token` answers with the output a miner's
    coinbase has to pay and records its script in `token_payout`. The map
    always holds the latest such answer that has not been evicted; whether a
    declared coinbase pays it is left to the client, since
    `handle_declare_mining_job` never reads the map.
-/

namespace Sv2P2pool

open ByteCodec Bitcoin Interleave

section

variable {cr : Crates} {w : Wiring}

/-! ## What a step does to the payout maps -/

/-- The effect of a complete call on `token_payout` and
    `user_identifier_index`. -/
inductive PayoutsStep (cr : Crates) (s : Engine) : Done → Engine → Prop where
  /-- An allocation that answers with an output binds the token. -/
  | bound {s' : Engine} (resolver : String → Option ScriptBuf) (token : JdToken)
      (user : String) (maxSize : Nat) (script : ScriptBuf)
      (halloc : s.allocation cr resolver token user maxSize =
        some (normalizeIdentifier cr user, script))
      (hpayout : s'.tokenPayout = s.tokenPayout.insert token script)
      (hindex : s'.userIdentifierIndex =
        s.userIdentifierIndex.insert (normalizeIdentifier cr user) token) :
      PayoutsStep cr s ⟨.allocate resolver token user maxSize, some ⟨0, script⟩⟩ s'
  /-- An eviction drops the token, and its user only if the token was bound. -/
  | dropped {s' : Engine} (token : JdToken)
      (hpayout : s'.tokenPayout = s.tokenPayout.erase token)
      (hindex : s'.userIdentifierIndex =
        if (s.tokenPayout.lookup token).isSome then
          DashMap.retain (fun _ bound => bound ≠ token) s.userIdentifierIndex
        else s.userIdentifierIndex) :
      PayoutsStep cr s ⟨.evict token, ()⟩ s'
  /-- Every other call leaves both maps alone. -/
  | kept {s' : Engine} (e : Done)
      (hbind : ∀ resolver token user maxSize out,
        e ≠ ⟨.allocate resolver token user maxSize, some out⟩)
      (hdrop : ∀ token, e ≠ ⟨.evict token, ()⟩)
      (hpayout : s'.tokenPayout = s.tokenPayout)
      (hindex : s'.userIdentifierIndex = s.userIdentifierIndex) :
      PayoutsStep cr s e s'

/-- A program that writes neither payout map. -/
theorem payouts_of_writesOnly {α : Type} {p : Handler α} {l : List Region} {env : Env}
    {s : Engine} {e : Done} (h : WritesOnly l p) (hl : .payouts ∉ l)
    (hbind : ∀ resolver token user maxSize out,
      e ≠ ⟨.allocate resolver token user maxSize, some out⟩)
    (hdrop : ∀ token, e ≠ ⟨.evict token, ()⟩) :
    PayoutsStep cr s e (run env.oracle p s).2 :=
  .kept e hbind hdrop (run_payouts env h hl s).1 (run_payouts env h hl s).2

theorem CallStep.payouts {s s' : Engine} {e : Done} (h : CallStep cr w s e s') :
    PayoutsStep cr s e s' := by
  obtain ⟨env, h⟩ := h
  obtain ⟨c, resp⟩ := e
  -- only an allocation and an eviction write the payout maps
  cases c with
  | allocate resolver token user maxSize =>
    have h : (resp, s') = _ := h.trans (run_allocate cr env s resolver token user maxSize)
    cases halloc : s.allocation cr resolver token user maxSize with
    | none =>
      rw [halloc] at h
      obtain ⟨rfl, rfl⟩ := Prod.mk.inj h
      exact .kept _ (by simp) (by simp) rfl rfl
    | some answer =>
      obtain ⟨id, script⟩ := answer
      rw [halloc] at h
      obtain ⟨rfl, rfl⟩ := Prod.mk.inj h
      obtain rfl := ((allocation_eq_some cr).mp halloc).1
      exact .bound resolver token user maxSize script halloc rfl rfl
  | declare d pmts =>
    rw [(Prod.mk.inj h).2]
    exact payouts_of_writesOnly (writesOnly_declare cr w d pmts) (by simp) (by simp) (by simp)
  | setCustom m token =>
    rw [(Prod.mk.inj h).2]
    exact payouts_of_writesOnly (p := handleSetCustomMiningJob cr w m token)
      (writesOnly_setCustom cr w m token) (by simp) (by simp) (by simp)
  | push ps =>
    rw [(Prod.mk.inj h).2]
    exact payouts_of_writesOnly (writesOnly_push cr w ps) (by simp) (by simp) (by simp)
  | reorg newTip =>
    rw [(Prod.mk.inj h).2]
    exact payouts_of_writesOnly (writesOnly_reorg w newTip) (by simp) (by simp) (by simp)
  | evict token =>
    rw [(Prod.mk.inj h).2]
    exact .dropped token (run_evict_tokenPayout env s token) (run_evict_index env s token)
  | tdpMessage msg =>
    rw [(Prod.mk.inj h).2]
    exact .kept _ (by simp) (by simp) rfl rfl

/-! ## The promised output -/

/-- What the pool has promised to the token after one more call. -/
def promiseAfter (t : JdToken) (out : Option TxOut) : Done → Option TxOut
  | ⟨.allocate _ token _ _, some answer⟩ => if t = token then some answer else out
  | ⟨.evict token, _⟩ => if t = token then none else out
  | _ => out

/-- The output of the latest allocation answer for the token, unless the token
    was evicted since. -/
def promised (log : List Done) (t : JdToken) : Option TxOut := log.foldl (promiseAfter t) none

theorem promised_snoc (log : List Done) (e : Done) (t : JdToken) :
    promised (log ++ [e]) t = promiseAfter t (promised log t) e := by
  simp [promised]

/-- `token_payout` follows the promises. -/
theorem CallStep.tokenPayout {s s' : Engine} {e : Done} (h : CallStep cr w s e s') (t : JdToken)
    {out : Option TxOut} (hout : s.tokenPayout.lookup t = out.map TxOut.scriptPubkey) :
    s'.tokenPayout.lookup t = (promiseAfter t out e).map TxOut.scriptPubkey := by
  cases CallStep.payouts h with
  | bound resolver token user maxSize script halloc hpayout hindex =>
    simp only [promiseAfter, hpayout, DashMap.lookup_insert_eq]
    split_ifs
    · rfl
    · exact hout
  | dropped token hpayout hindex =>
    simp only [promiseAfter, hpayout, DashMap.lookup_erase_eq]
    split_ifs
    · rfl
    · exact hout
  | kept _ hbind hdrop hpayout hindex =>
    have hsame : promiseAfter t out e = out := by
      obtain ⟨c, resp⟩ := e
      cases c with
      | allocate resolver token user maxSize =>
        cases resp with
        | none => rfl
        | some answer => exact absurd rfl (hbind resolver token user maxSize answer)
      | evict token => exact absurd rfl (hdrop token)
      | _ => rfl
    rw [hpayout, hsame]
    exact hout

/-- In every run the live entries are the promised scripts. -/
theorem Run.tokenPayout {log : List Done} {s : Engine} (h : Run cr w Engine.new log s)
    (t : JdToken) : s.tokenPayout.lookup t = (promised log t).map TxOut.scriptPubkey := by
  refine Trace.history (P := fun log s =>
    s.tokenPayout.lookup t = (promised log t).map TxOut.scriptPubkey) rfl ?_ log h
  intro log s e s' hinv hstep
  rw [promised_snoc]
  exact CallStep.tokenPayout hstep t hinv

/-! ## Paying the promise -/

/-- The coinbase between prefix and suffix has an output to the script. -/
def PaysTo (cr : Crates) (coinbaseTxPrefix coinbaseTxSuffix : Bytes) (script : ScriptBuf) : Prop :=
  ∃ tx, reconstructCoinbase cr coinbaseTxPrefix coinbaseTxSuffix = .ok tx ∧
    ∃ out ∈ tx.output, out.scriptPubkey = script

/-- Every job accepted in the run pays the script that `token_payout` held for
    its token when it was declared. -/
def PayoutsEnforced (cr : Crates) (w : Wiring) (log : List Done) (s : Engine) : Prop :=
  ∀ log₁ d pmts log₂ s₁ s₂, log = log₁ ++ ⟨.declare d pmts, .success⟩ :: log₂ →
    Run cr w Engine.new log₁ s₁ → CallStep cr w s₁ ⟨.declare d pmts, .success⟩ s₂ →
    Run cr w s₂ log₂ s →
    ∀ job t script, s₂.declaredJobs.lookup d.requestId = some job →
      job.allocatedToken = some t → s₁.tokenPayout.lookup t = some script →
      PaysTo cr job.coinbaseTxPrefix job.coinbaseTxSuffix script

/-- Every accepted declaration pays the output last promised to its token. -/
def PromisesKept (cr : Crates) (log : List Done) : Prop :=
  ∀ log₁ d pmts log₂, log = log₁ ++ ⟨.declare d pmts, .success⟩ :: log₂ →
    ∀ t out, decodeToken d = some t → promised log₁ t = some out →
      PaysTo cr d.coinbaseTxPrefix d.coinbaseTxSuffix out.scriptPubkey

/-- The payout binding holds in exactly those runs in which the clients keep
    to the promised outputs by themselves. -/
theorem payouts_enforced_iff {log : List Done} {s : Engine} (h : Run cr w Engine.new log s) :
    PayoutsEnforced cr w log s ↔ PromisesKept cr log := by
  constructor
  · intro henf log₁ d pmts log₂ heq t out htoken hout
    subst heq
    -- cut the run at the declaration: the promise is live in the state before it
    obtain ⟨s₁, hrun₁, s₂, hdecl, hrun₂⟩ := (Trace.append_iff _ _ _ _).mp h
    obtain ⟨env, t', txs, hcheck, hjobs, -⟩ := CallStep.stored hdecl
    obtain rfl : t' = t := Option.some.inj ((checkDeclaration_ok hcheck).1.symm.trans htoken)
    refine henf log₁ d pmts log₂ s₁ s₂ rfl hrun₁ hdecl hrun₂ (jobFor cr w env s₁ d t' txs) t'
      out.scriptPubkey ?_ rfl ?_
    · rw [hjobs, DashMap.lookup_insert_eq, if_pos rfl]
    · rw [Run.tokenPayout hrun₁, hout]
      rfl
  · intro hkept log₁ d pmts log₂ s₁ s₂ hlog hrun₁ hdecl hrun₂ job t script hjob hown hlive
    obtain ⟨env, t', txs, hcheck, hjobs, -⟩ := CallStep.stored hdecl
    rw [hjobs, DashMap.lookup_insert_eq, if_pos rfl] at hjob
    obtain rfl := Option.some.inj hjob
    obtain rfl : t' = t := Option.some.inj hown
    rw [Run.tokenPayout hrun₁] at hlive
    obtain ⟨out, hout, rfl⟩ := Option.map_eq_some_iff.mp hlive
    exact hkept log₁ d pmts log₂ hlog t' out (checkDeclaration_ok hcheck).1 hout

/-- One more call, which pays if it is an accepted declaration. -/
theorem PromisesKept.snoc {log : List Done} {e : Done} (h : PromisesKept cr log)
    (he : ∀ d pmts, e = ⟨.declare d pmts, .success⟩ →
      ∀ t out, decodeToken d = some t → promised log t = some out →
        PaysTo cr d.coinbaseTxPrefix d.coinbaseTxSuffix out.scriptPubkey) :
    PromisesKept cr (log ++ [e]) := by
  intro log₁ d pmts log₂ hlog t out htoken hout
  -- the declaration is the last call of the longer run or lies in the shorter one
  rcases split_snoc_cases hlog with ⟨rfl, hlast, -⟩ | ⟨log₂', -, hold⟩
  · exact he d pmts hlast.symm t out htoken hout
  · exact h log₁ d pmts log₂' hold t out htoken hout

theorem promisesKept_nil : PromisesKept cr [] := by
  intro log₁ d pmts log₂ hlog
  simp at hlog

end

/-- The pool answers the allocation of token 3 with the script `[5]`. -/
def Sample.allocated : List (Env × Call) :=
  (Sample.online, .allocate (fun _ => some [5]) 3 "miner" 100) :: Sample.announce (U256.fill 1)

/-- A client that declares the promised output. -/
theorem payouts_enforced_for_paying_client :
    let log := Engine.new.answers Sample.crates Sample.wiring Sample.allocated ++
      [⟨Sample.declare 7 3 [5], .success⟩]
    let s := Engine.new.after Sample.crates Sample.wiring
      (Sample.allocated ++ [(Sample.online, Sample.declare 7 3 [5])])
    promised log 3 = some ⟨0, [5]⟩ ∧ PayoutsEnforced Sample.crates Sample.wiring log s := by
  intro log s
  have hrun : Run Sample.crates Sample.wiring Engine.new log s :=
    (Trace.snoc_iff _ _ _ _).mpr ⟨_, run_after _ _ _ _,
      Sample.declare_step Sample.allocated (by decide +kernel)⟩
  refine ⟨by decide +kernel, (payouts_enforced_iff hrun).mpr ?_⟩
  refine (((promisesKept_nil.snoc ?_).snoc ?_).snoc ?_).snoc ?_
  · simp
  · simp
  · simp
  · intro d pmts heq t out htoken hout
    obtain ⟨rfl, -⟩ : Sample.declaration 7 3 [5] = d ∧ _ := by
      simpa [Sample.declare] using congrArg Sigma.fst heq
    obtain rfl : t = 3 := by
      have h3 : decodeToken (Sample.declaration 7 3 [5]) = some 3 := by decide +kernel
      exact Option.some.inj (htoken.symm.trans h3)
    have hpromise : promised (Engine.new.answers Sample.crates Sample.wiring Sample.allocated) 3 =
        some ⟨0, [5]⟩ := by decide +kernel
    obtain rfl := Option.some.inj (hpromise.symm.trans hout)
    exact ⟨Sample.coinbase [5] [0, 0, 0, 0], by decide +kernel, ⟨0, [5]⟩, by decide, rfl⟩

/-- A client that declares another output is accepted all the same. -/
theorem payout_not_enforced :
    let log := Engine.new.answers Sample.crates Sample.wiring Sample.allocated ++
      [⟨Sample.declare 7 3 [9], .success⟩]
    let s := Engine.new.after Sample.crates Sample.wiring
      (Sample.allocated ++ [(Sample.online, Sample.declare 7 3 [9])])
    Run Sample.crates Sample.wiring Engine.new log s ∧
    ¬ PayoutsEnforced Sample.crates Sample.wiring log s := by
  intro log s
  have hdecl : CallStep _ _ _ ⟨Sample.declare 7 3 [9], .success⟩ s :=
    Sample.declare_step Sample.allocated (by decide +kernel)
  refine ⟨(Trace.snoc_iff _ _ _ _).mpr ⟨_, run_after _ _ _ _, hdecl⟩, fun henf => ?_⟩
  obtain ⟨tx, htx, out, hout, hscript⟩ := henf _ _ _ [] _ s rfl (run_after _ _ _ _) hdecl rfl
    (Sample.job (U256.fill 1) 3 [9]) 3 [5] (by decide +kernel) rfl (by decide +kernel)
  have hcb : reconstructCoinbase Sample.crates (Sample.job (U256.fill 1) 3 [9]).coinbaseTxPrefix
      (Sample.job (U256.fill 1) 3 [9]).coinbaseTxSuffix =
        .ok (Sample.coinbase [9] [0, 0, 0, 0]) := by decide +kernel
  rw [hcb] at htx
  cases htx
  simp [Sample.coinbase] at hout
  simp [hout] at hscript

end Sv2P2pool
