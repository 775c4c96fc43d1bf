import Sv2P2pool.Desk
import Sv2P2pool.CoinbaseBytes
import Sv2P2pool.MerklePath

/-! # The Session of an Honest JDC

    The handlers refuse for many reasons; a JDC that makes no mistake must
    meet none of them. It cuts its coinbase at the extranonce, declares the
    ids of its transactions, provides them when asked, and sets a custom job
    made from the same coinbase on the tip it heard of. Whatever the other
    clients, the Template Provider and the share chain do in between, the
    engine answers as the protocol says, and the only thing that can go wrong
    is the verdict of bitcoind on the very block of this work.
-/

namespace Sv2P2pool

open ByteCodec Bitcoin Interleave

/-! ## The work -/

/-- The work of a JDC: a coinbase with one input, whose scriptSig ends in
    the extranonce, and the transactions of its template. -/
structure JdcWork where
  requestId : RequestId
  token : JdToken
  version : UInt32
  coinbase : Transaction
  input : TxIn
  extranonceBytes : Nat
  txs : List Transaction
  oneInput : coinbase.input = [input]
  /-- BIP 144: the witness commitment comes with a witness nonce. -/
  segwit : input.witness ≠ []
  extranonce_le : extranonceBytes ≤ input.scriptSig.length
  coinbase_le : coinbase.serialize.length ≤ maxVecSize
  txs_ne : txs ≠ []
  txs_le : ∀ tx ∈ txs, tx.serialize.length ≤ maxVecSize

namespace JdcWork

variable (cr : Crates) (work : JdcWork)

def cut : CoinbaseCut :=
  splitCoinbase work.coinbase work.input.scriptSig.length work.extranonceBytes

/-- The coinbase before an extranonce is known. -/
def zeroCoinbase : Transaction :=
  withScriptSig work.coinbase work.input (zeroLast work.input.scriptSig work.extranonceBytes)

def declaration : DeclareMiningJob where
  requestId := work.requestId
  miningJobToken := encodeLE 8 work.token.toNat
  version := work.version
  coinbaseTxPrefix := work.cut.coinbaseTxPrefix
  coinbaseTxSuffix := work.cut.coinbaseTxSuffix
  wtxidList := work.txs.map cr.computeWtxid

/-- The answer to a request for all transactions. -/
def provided : ProvideMissingTransactionsSuccess := ⟨work.txs.map Transaction.serialize⟩

/-- The custom job on a tip. The path has no place for the coinbase, so it is
    the same for any. -/
def customJob (tip : SetNewPrevHash) (minNtime : UInt32) : SetCustomMiningJob where
  version := work.version
  prevHash := tip.prevHash
  minNtime := minNtime
  nbits := tip.nBits
  coinbaseTxVersion := work.coinbase.version.toUInt32
  coinbasePrefix := work.input.scriptSig.take (work.input.scriptSig.length - work.extranonceBytes)
  coinbaseTxInputNSequence := work.input.sequence
  coinbaseTxOutputs := (vec txOutCodec).encode work.coinbase.output
  coinbaseTxLocktime := work.coinbase.lockTime
  merklePath := merklePath cr (cr.computeTxid work.coinbase) (work.txs.map cr.computeTxid)

/-- The block of this work with the given bodies, before it is mined. -/
def candidate (tip : SetNewPrevHash) (minNtime : UInt32) (bodies : List Transaction) : Block where
  header :=
    { version := work.version.toInt32
      prevBlockhash := tip.prevHash
      merkleRoot := computeMerkleRootFromTxids cr (cr.computeTxid work.zeroCoinbase)
        (work.txs.map cr.computeTxid)
      time := minNtime
      bits := tip.nBits
      nonce := 0 }
  txdata := work.zeroCoinbase :: bodies

/-- The job the engine makes of the declaration. -/
def job (captured : TipMetadata) (templateId : Option UInt64)
    (shareChainTip : Option BlockHash) : DeclaredJob :=
  declaredSnapshot cr (work.declaration cr) work.token work.txs captured templateId shareChainTip

variable {cr work}

/-- The engine puts the coinbase together again. -/
theorem reconstruct_cut :
    reconstructCoinbase cr work.cut.coinbaseTxPrefix work.cut.coinbaseTxSuffix =
      .ok work.zeroCoinbase := by
  obtain ⟨before, hole, hscript, hlen, hbefore⟩ : ∃ before hole,
      work.input.scriptSig = before ++ hole ∧ hole.length = work.extranonceBytes ∧
      before = work.input.scriptSig.take (work.input.scriptSig.length - work.extranonceBytes) := by
    refine ⟨_, _, (List.take_append_drop _ _).symm, ?_, rfl⟩
    have := work.extranonce_le
    rw [List.length_drop]
    omega
  have hcut := splitCoinbase_eq work.oneInput work.segwit hscript
  have hsize : extranonceSize cr work.cut.coinbaseTxPrefix = .ok hole.length := by
    rw [cut, ← hlen, hcut]
    exact extranonceSize_split work.segwit
      (scriptSig_length_le work.oneInput work.coinbase_le) hscript
  have hfill : (List.replicate hole.length (0 : UInt8)).length = hole.length :=
    List.length_replicate
  rw [reconstructCoinbase_eq_ok]
  refine ⟨hole.length, hsize, ?_⟩
  rw [cut, zeroCoinbase, zeroLast, ← hbefore, ← hlen, hcut]
  exact (decode_refilled cr work.oneInput hscript hfill).mpr work.coinbase_le

theorem decodeToken_declaration : decodeToken (work.declaration cr) = some work.token := by
  have hdec : decodeLE 8 (encodeLE 8 work.token.toNat) = some (work.token.toNat, []) := by
    rw [decodeLE_iff, List.append_nil]
    exact ⟨work.token.toNat_lt, rfl⟩
  simp [decodeToken, declaration, hdec]

/-- Every provided body decodes to its transaction. -/
theorem decode_provided :
    work.provided.transactionList.filterMap cr.consensusDecode = work.txs := by
  rw [provided, List.filterMap_map]
  have hdec : ∀ tx ∈ work.txs, cr.consensusDecode tx.serialize = some tx := by
    intro tx htx
    simpa using cr.consensusDecode_serialize (work.txs_le tx htx) []
  calc work.txs.filterMap (cr.consensusDecode ∘ Transaction.serialize)
      = work.txs.filterMap some := List.filterMap_congr hdec
    _ = work.txs := List.filterMap_some

theorem check_declaration (pmts : Option ProvideMissingTransactionsSuccess) :
    checkDeclaration cr (work.declaration cr) pmts =
      if pmts.isNone then .error (.missingTransactions (work.txs.map cr.computeWtxid))
      else .ok (work.token, match pmts with
        | some p => p.transactionList.filterMap cr.consensusDecode
        | none => []) := by
  have hrec : reconstructCoinbase cr (work.declaration cr).coinbaseTxPrefix
      (work.declaration cr).coinbaseTxSuffix = .ok work.zeroCoinbase := reconstruct_cut
  have hone : work.zeroCoinbase.input.length = 1 := rfl
  have hids : (work.declaration cr).wtxidList.isEmpty = false := by
    simpa [declaration] using work.txs_ne
  simp only [checkDeclaration, decodeToken_declaration, hrec, hone, hids]
  cases pmts <;> rfl

theorem check_provided : checkDeclaration cr (work.declaration cr) (some work.provided) =
    .ok (work.token, work.txs) := by
  rw [check_declaration]
  simp only [Option.isNone_some, Bool.false_eq_true, if_false, decode_provided]

end JdcWork

/-! ## The session -/

/-- The Template Provider's message in an act. -/
def BookAct.message? : BookAct → Option TemplateDistribution
  | .call _ c => c.message?
  | .flush _ => none

/-- The Template Provider's messages among the acts, in order. -/
def actMessages (acts : List BookAct) : List TemplateDistribution :=
  acts.filterMap BookAct.message?

section

variable (cr : Crates) (w : Wiring)

/-- The answer to a call that comes after some acts. -/
def Engine.answer (acts : List BookAct) (env : Env) (c : Call) : c.Resp :=
  (c.perform cr w env (Machine.after (Engine.act cr w) Engine.new acts)).1

/-- The act leaves the job on the place of `t`: it is about another token, or
    a reorg that spares the job. -/
def BookAct.Leaves (t : JdToken) (job : DeclaredJob) : BookAct → Prop
  | .call env (.reorg newTip) => env.Spares w newTip job
  | .call _ (.tdpMessage _) => True
  | .flush _ => False
  | act => act.concerns t = false

variable {cr w} {owner : RequestId → JdToken} {desk : JobDesk} {t : JdToken} {job : DeclaredJob}

theorem BookAct.Leaves.board {act : BookAct} (h : act.Leaves w t job)
    (hboard : desk.board t = some job) : (JobDesk.act cr w desk act).2.board t = some job := by
  cases act with
  | flush env => exact h.elim
  | call env c =>
    cases c with
    | declare d pmts =>
      have htoken : decodeToken d ≠ some t := of_decide_eq_false h
      cases hcheck : checkDeclaration cr d pmts with
      | error result =>
        simp only [JobDesk.act, hcheck]
        exact hboard
      | ok accepted =>
        obtain ⟨t', txs⟩ := accepted
        have ht : t ≠ t' := by
          intro heq
          subst heq
          exact htoken (checkDeclaration_ok hcheck).1
        simp only [JobDesk.act, hcheck]
        rw [JobDesk.put_board, if_neg ht]
        exact hboard
    | setCustom m t' =>
      have ht : t' ≠ t := of_decide_eq_false h
      show (desk.put t' none).board t = some job
      rw [JobDesk.put_board, if_neg (Ne.symm ht)]
      exact hboard
    | reorg newTip =>
      show (desk.prune (env.Spares w newTip)).board t = some job
      rw [JobDesk.prune_board]
      exact ⟨hboard, h⟩
    | _ => exact hboard

theorem after_board {acts : List BookAct} (h : ∀ act ∈ acts, act.Leaves w t job) :
    ∀ {desk : JobDesk}, desk.board t = some job →
      (Machine.after (JobDesk.act cr w) desk acts).board t = some job := by
  induction acts with
  | nil => exact fun hboard => hboard
  | cons act acts ih =>
    intro desk hboard
    exact ih (fun act' hact' => h act' (List.mem_cons_of_mem _ hact'))
      ((h act List.mem_cons_self).board hboard)

theorem getLast?_filterMap_cons {α β : Type} (f : α → Option β) (a : α) (l : List α) :
    ((a :: l).filterMap f).getLast? = ((l.filterMap f).getLast?).or (f a) := by
  rw [List.filterMap_cons]
  cases f a with
  | none => simp
  | some b => simp [List.getLast?_cons]

/-- The desk keeps the last messages of their kind. -/
theorem after_snapshots (acts : List BookAct) : ∀ desk : JobDesk,
    (Machine.after (JobDesk.act cr w) desk acts).snapshots =
      (((prevHashes (actMessages acts)).getLast?).or desk.snapshots.1,
        ((templates (actMessages acts)).getLast?).or desk.snapshots.2) := by
  induction acts with
  | nil => exact fun desk => rfl
  | cons act acts ih =>
    intro desk
    rw [Machine.after_cons, ih]
    cases act with
    | flush env => rfl
    | call env c =>
      cases c with
      | tdpMessage msg =>
        have hmsgs : actMessages (.call env (.tdpMessage msg) :: acts) =
            msg :: actMessages acts := rfl
        simp only [hmsgs, prevHashes, templates, getLast?_filterMap_cons, Option.or_assoc]
        rfl
      | declare d pmts =>
        simp only [JobDesk.act]
        cases checkDeclaration cr d pmts <;> rfl
      | _ => rfl

end

/-- What happens up to the custom job of a work: it is declared, and declared
    again with its transactions. -/
structure JdcSession where
  work : JdcWork
  before : List BookAct
  /-- Answers the first declaration. -/
  asked : Env
  between : List BookAct
  /-- Answers the second one. -/
  told : Env
  after : List BookAct

namespace JdcSession

variable (cr : Crates) (w : Wiring) (session : JdcSession)

/-- The acts before the second declaration. -/
def acts₁ : List BookAct :=
  session.before ++ .call session.asked (.declare (session.work.declaration cr) none) ::
    session.between

/-- The acts before the custom job. -/
def acts₂ : List BookAct :=
  session.acts₁ cr ++ .call session.told (.declare (session.work.declaration cr)
    (some session.work.provided)) :: session.after

/-- The others keep to request ids of their own and leave the job where it is,
    and the JDC works on the last tip the Template Provider announced before
    the declaration that is accepted. -/
structure Orderly (owner : RequestId → JdToken) (tip : SetNewPrevHash) : Prop where
  ownIds : ∀ act ∈ session.acts₂ cr, act.OwnId cr owner
  left : ∀ job, job.shareChainTip = session.told.shareChainTip w →
    ∀ act ∈ session.after, act.Leaves w session.work.token job
  tip : w.tdp = true → ∀ last, (prevHashes (actMessages (session.acts₁ cr))).getLast? = some last →
    tip.prevHash = last.prevHash ∧ tip.nBits = last.nBits

variable {cr w session} {owner : RequestId → JdToken} {tip : SetNewPrevHash}

/-- The work's job lies on its place when the custom job comes. -/
theorem Orderly.board (h : session.Orderly cr w owner tip) :
    ∃ captured, (captured.wasCaptured = true →
        tip.prevHash = captured.prevHash ∧ tip.nBits = captured.nbits) ∧
      (Machine.after (JobDesk.act cr w) JobDesk.empty (session.acts₂ cr)).board
          session.work.token =
        some (session.work.job cr captured
          (if w.tdp then (templates (actMessages (session.acts₁ cr))).getLast?.map
            NewTemplate.templateId else none) (session.told.shareChainTip w)) := by
  generalize hdesk : Machine.after (JobDesk.act cr w) JobDesk.empty (session.acts₁ cr) = desk
  have hsnap : desk.snapshots = ((prevHashes (actMessages (session.acts₁ cr))).getLast?,
      (templates (actMessages (session.acts₁ cr))).getLast?) := by
    rw [← hdesk, after_snapshots]
    simp [JobDesk.empty]
  refine ⟨(capturedFrom w desk.snapshots).1, ?_, ?_⟩
  · -- a captured tip is the last one announced
    intro hcap
    rw [hsnap] at hcap ⊢
    unfold capturedFrom at hcap ⊢
    split_ifs at hcap ⊢ with htdp
    · cases hlast : (prevHashes (actMessages (session.acts₁ cr))).getLast? with
      | none =>
        rw [hlast] at hcap
        cases hcap
      | some last => exact h.tip htdp last hlast
    · cases hcap
  · rw [acts₂, Machine.after_append, hdesk, Machine.after_cons]
    refine after_board (h.left _ rfl) ?_
    have hact : (JobDesk.act cr w desk (.call session.told (.declare (session.work.declaration cr)
        (some session.work.provided)))).2 = desk.put session.work.token
          (some (desk.job cr w session.told (session.work.declaration cr) session.work.token
            session.work.txs)) := by
      simp only [JobDesk.act, JdcWork.check_provided]
    rw [hact, JobDesk.put_board, if_pos rfl, JobDesk.job, JdcWork.job, hsnap, capturedFrom]
    cases w.tdp <;> rfl

end JdcSession

section

variable {cr : Crates} {w : Wiring} {owner : RequestId → JdToken} {tip : SetNewPrevHash}

end

/-! ## A session between others -/

namespace Sample

def work : JdcWork where
  requestId := 7
  token := 3
  version := 5
  coinbase := coinbase [9] [0, 0, 0, 0]
  input := ⟨⟨U256.allZeros, 0xffffffff⟩, [3, 1, 1, 1, 0, 0, 0, 0], 0xffffffff, [[0]]⟩
  extranonceBytes := 4
  txs := [body]
  oneInput := rfl
  segwit := by decide
  extranonce_le := by decide
  coinbase_le := by decide +kernel
  txs_ne := by decide
  txs_le := by decide +kernel

/-- Another client declares before the transactions are told; two shares and
    the other client's custom job come before this one. -/
def session : JdcSession where
  work := work
  before := (announce (U256.fill 1)).map fun c => .call c.1 c.2
  asked := online
  between := [.call online (declare 8 4 [8])]
  told := onShares
  after := [.call onShares (.reorg (U256.fill 3)),
    .call online (.setCustom (customJob (U256.fill 1) [8]) 4)]

def lastTip : SetNewPrevHash := ⟨1, U256.fill 1, 0, 9⟩

end Sample

end Sv2P2pool
