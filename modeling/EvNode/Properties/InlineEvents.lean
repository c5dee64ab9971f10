import EvNode.Properties.Moves
import EvNode.Properties.Subscriber
import EvNode.Syncing.DaFollower

/-!
# What the inline fast path reads

An event of the subscription has the blobs of one namespace. It is handled inline if it is for the next
DA height, and the call succeeds as soon as one block is complete: an empty block is, with its header
alone. The event of the other namespace is then late, and nobody reads its blobs
(`other_namespace_unread`).
-/

namespace EvNode

open Crash Proc DARetriever

variable {Tx : Type}

/-! ## The DA layer -/

/-- The blobs of the header and of the data namespace at each DA height. -/
structure DAContent where
  sameNamespace : Bool
  headers : Nat → List Bytes
  data : Nat → List Bytes

namespace DAContent

/-- All blobs of a DA height that concern the chain. -/
def blobs (c : DAContent) (h : Nat) : List Bytes :=
  if c.sameNamespace then c.headers h else c.headers h ++ c.data h

/-- The answer for a namespace: its blobs, that there are none, or an error. -/
def Answers (res : ResultRetrieve Bytes) (blobs : List Bytes) : Prop :=
  match res.code with
  | .success => res.data = blobs
  | .notFound => blobs = []
  | .error | .heightFromFuture => True
  | _ => False

/-- What the client answers for one DA height is what is there, or an error. -/
structure Faithful (c : DAContent) (client : BlobAnswers) (h : Nat) : Prop where
  sameNamespace : client.sameNamespace = c.sameNamespace
  headers : Answers (client.headers h) (c.headers h)
  data : c.sameNamespace = false → Answers (client.data h) (c.data h)

/-- A client that has what is there, for concrete runs. -/
def client (c : DAContent) : BlobAnswers where
  sameNamespace := c.sameNamespace
  headers h := answer (c.headers h)
  data h := answer (c.data h)
where
  answer (blobs : List Bytes) : ResultRetrieve Bytes :=
    ⟨if blobs = [] then .notFound else .success, "", zeroTime, blobs⟩

instance (res : ResultRetrieve Bytes) (blobs : List Bytes) : Decidable (Answers res blobs) :=
  match h : res.code with
  | .success => decidable_of_iff (res.data = blobs) (by simp [Answers, h])
  | .notFound => decidable_of_iff (blobs = []) (by simp [Answers, h])
  | .error | .heightFromFuture => .isTrue (by simp [Answers, h])
  | .unknown | .notIncludedInBlock | .alreadyInMempool | .tooBig | .contextDeadline
  | .incorrectAccountSequence | .contextCanceled => .isFalse (by simp [Answers, h])

variable {c : DAContent} {client : BlobAnswers} {h : Nat}

theorem faithful_iff : c.Faithful client h ↔ client.sameNamespace = c.sameNamespace ∧
    Answers (client.headers h) (c.headers h) ∧
      (c.sameNamespace = false → Answers (client.data h) (c.data h)) :=
  ⟨fun hf => ⟨hf.sameNamespace, hf.headers, hf.data⟩, fun ⟨hs, hh, hd⟩ => ⟨hs, hh, hd⟩⟩

instance : Decidable (c.Faithful client h) := decidable_of_iff _ faithful_iff.symm

variable {res : ResultRetrieve Bytes} {blobs : List Bytes}

theorem Answers.successData (ha : Answers res blobs)
    (hok : blobError res = none) : DARetriever.successData res = blobs := by
  unfold Answers at ha
  unfold DARetriever.successData
  cases hcode : res.code with
  | success => simpa [hcode] using ha
  | notFound => simp_all
  | error | heightFromFuture => simp [blobError, validateBlobResponse, hcode, Err.is] at hok
  | _ => simp [hcode] at ha

/-- In one namespace, the blobs of a valid response. -/
theorem Answers.data_of_valid (ha : Answers res blobs)
    (hok : validateBlobResponse res = .ok ()) : res.data = blobs := by
  unfold Answers at ha
  cases hcode : res.code with
  | success => simpa [hcode] using ha
  | notFound | error | heightFromFuture => simp [validateBlobResponse, hcode] at hok
  | _ => simp [hcode] at ha

/-- In one namespace, there are no blobs only if that is the answer. -/
theorem Answers.nil_of_notFound {e : Err}
    (ha : Answers res blobs) (herr : validateBlobResponse res = .error e)
    (he : e.is .blobNotFound = true) : blobs = [] := by
  unfold Answers at ha
  unfold validateBlobResponse at herr
  cases hcode : res.code with
  | notFound => simpa [hcode] using ha
  | error | heightFromFuture =>
    rw [hcode] at herr
    cases herr
    cases he
  | _ => simp [hcode] at herr

/-- What a fetch gives for one DA height. -/
theorem Faithful.fetchBlobs_cases (hf : c.Faithful client h) :
    match DARetriever.fetchBlobs client h with
    | .ok blobs => blobs = c.blobs h
    | .error e => e.is .blobNotFound = true → c.blobs h = [] := by
  unfold DARetriever.fetchBlobs blobs
  rw [hf.sameNamespace]
  cases hsame : c.sameNamespace with
  | true =>
    cases hvalid : validateBlobResponse (client.headers h) with
    | ok u => simpa [hvalid] using hf.headers.data_of_valid hvalid
    | error e => simpa [hvalid] using hf.headers.nil_of_notFound hvalid
  | false =>
    have hnot : ∀ {res e}, blobError res = some e → e.is .blobNotFound = false := by
      intro res e herr
      unfold blobError at herr
      split at herr
      · split at herr
        · cases herr
        · next hne =>
          cases herr
          simpa using hne
      · cases herr
    simp only [Bool.false_eq_true, if_false]
    cases hheader : blobError (client.headers h) with
    | some e => simp [hnot hheader]
    | none =>
      cases hdata : blobError (client.data h) with
      | some e => simp [hnot hdata]
      | none =>
        dsimp only
        rw [hf.headers.successData hheader, (hf.data hsame).successData hdata]
        by_cases hnil : c.headers h ++ c.data h = []
        · rw [if_pos hnil]
          exact fun _ => hnil
        · rw [if_neg hnil]

end DAContent

/-- The operations at which the event or the handler comes in. -/
def Subscriber.Op.isHandler : Subscriber.Op → Bool
  | .receive _ | .followReturn _ | .catchupReturn _ => true
  | _ => false

namespace Subscriber

theorem handled_updateHighest (height : Nat) (s : Subscriber) :
    (s.updateHighest height).handled = s.handled := by
  unfold updateHighest
  split <;> rfl

theorem handled_receive (height : Nat) (s : Subscriber) : (s.receive height).handled = s.handled := by
  unfold receive
  split
  · exact handled_updateHighest ..
  · rfl

variable {s : Subscriber}

theorem handled_step {op : Op} (hop : op.isHandler = false) :
    (s.step op).handled = s.handled := by
  cases op with
  | receive | followReturn | catchupReturn => cases hop
  | poll height =>
    simp only [step, poll]
    split
    · rfl
    · exact handled_updateHighest ..
  | followLoad | followHead | followRollback | catchupResume =>
    simp only [step, followLoad, followHead, followRollback, catchupResume]
    split <;> rfl
  | followSwap | wake | catchupLoad | catchupLoadHighest | catchupSwap | catchupRollback =>
    simp only [step, followSwap, wake, catchupLoad, catchupLoadHighest, catchupSwap, catchupRollback]
    split
    · split <;> rfl
    · rfl

theorem handled_followReturn {height h : Nat} {isInline : Bool} {err : Option Err}
    (hfollow : s.follow = .handling height isInline) (hmem : h ∈ (s.followReturn err).handled) :
    h ∈ s.handled ∨ h = height ∧ isInline = true ∧ err = none := by
  unfold followReturn at hmem
  rw [hfollow] at hmem
  cases isInline with
  | false => exact .inl hmem
  | true =>
    cases err with
    | some e => exact .inl hmem
    | none => exact (List.mem_cons.mp hmem).symm.imp_right fun heq => ⟨heq, rfl, rfl⟩

theorem handled_catchupReturn {localHeight highest h : Nat} {err : Option Err}
    (hcatchup : s.catchup = .handling localHeight highest)
    (hmem : h ∈ (s.catchupReturn err).handled) : h ∈ s.handled ∨ h = localHeight ∧ err = none := by
  unfold catchupReturn at hmem
  rw [hcatchup] at hmem
  cases err with
  | some e => exact .inl hmem
  | none => exact (List.mem_cons.mp hmem).symm.imp_right fun heq => ⟨heq, rfl⟩

end Subscriber

namespace DAFollower

/-! ## The handler calls as scans -/

variable (cfg : DANodeConfig Tx)

theorem pipe_node (env : ScanEnv) (blobs : List Bytes) (daHeight : Nat) (n : DANode Tx) :
    let res := processBlobs cfg.retriever (DANode.blobEnv env n.syncer) blobs daHeight
      ⟨n.part, n.syncer.cache⟩
    (pipe cfg env.doneAt res.1 res.2 n).node = DANode.scan cfg env blobs daHeight n := by
  intro res
  unfold pipe DANode.scan
  dsimp only
  rw [Syncer.pipeAll_syncer]

/-- As long as the context is not done, all events are handed over. -/
theorem pipe_events {doneAt : Option Nat} (hdone : doneAt = none) (events : List (DAHeightEvent Tx))
    (r : Retrieval Tx) (n : DANode Tx) : (pipe cfg doneAt events r n).events = events := by
  subst hdone
  exact (Syncer.pipeAll_none ..).2

/-- An inline event is scanned, unless it has no blobs. -/
theorem handleEvent_inline (env : ScanEnv) (blobs : List Bytes) (height : Nat) (n : DANode Tx) :
    ((handleEvent cfg env blobs height true n).node = n ∧
        (handleEvent cfg env blobs height true n).err ≠ none) ∨
      ((handleEvent cfg env blobs height true n).node = DANode.scan cfg env blobs height n ∧
        (env.doneAt = none →
          (handleEvent cfg env blobs height true n).events = (DANode.matched cfg env blobs height n).1)) := by
  unfold handleEvent
  rw [if_neg (by simp)]
  split
  · exact .inl ⟨rfl, by simp⟩
  · right
    dsimp only
    split
    · next hnil =>
      -- without events, nothing is piped
      have hnil := List.length_eq_zero_iff.mp hnil
      refine ⟨?_, fun _ => hnil.symm⟩
      unfold DANode.scan
      dsimp only
      rw [hnil]
      simp [Syncer.pipeEvents]
    · exact ⟨pipe_node cfg env blobs height n, fun hdone => pipe_events cfg hdone ..⟩

/-- A fetch scans the blobs it gets. -/
theorem fetchAndPipeHeight_cases (env : FetchEnv) (daHeight : Nat) (n : DANode Tx) :
    match fetchBlobs env.client daHeight with
    | .ok blobs =>
      (fetchAndPipeHeight cfg env daHeight n).node = DANode.scan cfg env.scan blobs daHeight n ∧
        (env.scan.doneAt = none → (fetchAndPipeHeight cfg env daHeight n).events =
          (DANode.matched cfg env.scan blobs daHeight n).1)
    | .error e => fetchAndPipeHeight cfg env daHeight n =
        ⟨if e.is .blobNotFound then none else some e, [], n⟩ := by
  unfold fetchAndPipeHeight retrieveFromDA
  cases hfetch : fetchBlobs env.client daHeight with
  | ok blobs =>
    exact ⟨pipe_node cfg env.scan blobs daHeight n, fun hdone => pipe_events cfg hdone ..⟩
  | error e => rfl

theorem drainPriority_invariant {env : Nat → FetchEnv} (Inv : List (DAHeightEvent Tx) → DANode Tx → Prop)
    (hfetch : ∀ hint handed n, Inv handed n →
      Inv (handed ++ (fetchAndPipeHeight cfg (env hint) hint n).events)
        (fetchAndPipeHeight cfg (env hint) hint n).node)
    (daHeight : Nat) (hints : List Nat) (handed : List (DAHeightEvent Tx)) (n : DANode Tx)
    (h : Inv handed n) :
    Inv (handed ++ (drainPriority cfg env daHeight hints n).2.events)
      (drainPriority cfg env daHeight hints n).2.node := by
  induction hints generalizing handed n with
  | nil => simpa [drainPriority] using h
  | cons hint hints ih =>
    unfold drainPriority
    split
    · simpa using h
    · split
      · exact ih handed n h
      · have hfetched := hfetch hint handed n h
        dsimp only
        split
        · exact hfetched
        · split
          · -- the hint is from the future: the loop goes on
            have hrest := ih _ _ hfetched
            rwa [List.append_assoc] at hrest
          · exact hfetched

/-- What every fetch keeps, `HandleCatchup` keeps. If it returns nil, it has fetched the height itself. -/
theorem handleCatchup_invariant (env : CatchupEnv) (daHeight : Nat)
    (Inv : List (DAHeightEvent Tx) → DANode Tx → Prop)
    (hhint : ∀ hint handed n, Inv handed n →
      Inv (handed ++ (fetchAndPipeHeight cfg (env.hint hint) hint n).events)
        (fetchAndPipeHeight cfg (env.hint hint) hint n).node)
    (hints : List Nat) (handed : List (DAHeightEvent Tx)) (n : DANode Tx) (h : Inv handed n) :
    (∃ hints' r, handleCatchup cfg env daHeight hints n = (hints', r) ∧ r.err ≠ none ∧
        Inv (handed ++ r.events) r.node) ∨
      ∃ hints' events n', Inv (handed ++ events) n' ∧
        handleCatchup cfg env daHeight hints n = (hints',
          { fetchAndPipeHeight cfg env.sequential daHeight n' with
            events := events ++ (fetchAndPipeHeight cfg env.sequential daHeight n').events }) := by
  have hdrained := drainPriority_invariant cfg Inv hhint daHeight hints handed n h
  unfold handleCatchup
  dsimp only
  cases herr : (drainPriority cfg env.hint daHeight hints n).2.err with
  | some e => exact .inl ⟨_, _, rfl, by simp [herr], hdrained⟩
  | none => exact .inr ⟨_, _, _, hdrained, rfl⟩

/-! ## What has been processed -/

theorem processed_scan (env : ScanEnv) (blobs : List Bytes) (daHeight : Nat) (n : DANode Tx) :
    (DANode.scan cfg env blobs daHeight n).part.processed =
      n.part.processed ++ blobs.map fun bz => (daHeight, bz) :=
  processBlobs_processed ..

theorem processed_fetchAndPipeHeight (env : FetchEnv) (daHeight : Nat) (n : DANode Tx) :
    n.part.processed ⊆ (fetchAndPipeHeight cfg env daHeight n).node.part.processed := by
  have hcases := fetchAndPipeHeight_cases cfg env daHeight n
  split at hcases
  · rw [hcases.1, processed_scan]
    exact List.subset_append_left ..
  · rw [hcases]
    exact List.Subset.refl _

/-- A fetch that returns nil has processed all blobs of the DA height. -/
theorem processed_of_fetched {content : DAContent} {env : FetchEnv} {daHeight : Nat} (n : DANode Tx)
    (hda : content.Faithful env.client daHeight)
    (hok : (fetchAndPipeHeight cfg env daHeight n).err = none) {bz : Bytes}
    (hbz : bz ∈ content.blobs daHeight) :
    (daHeight, bz) ∈ (fetchAndPipeHeight cfg env daHeight n).node.part.processed := by
  have hcases := fetchAndPipeHeight_cases cfg env daHeight n
  have hfetch := hda.fetchBlobs_cases
  split at hcases
  · next blobs heq =>
    rw [heq] at hfetch
    rw [hcases.1, processed_scan, hfetch]
    exact List.mem_append_right _ (List.mem_map_of_mem hbz)
  · next e heq =>
    rw [heq] at hfetch
    rw [hcases] at hok
    have hnone : e.is .blobNotFound = true := by
      by_contra hne
      simp [hne] at hok
    rw [hfetch hnone] at hbz
    cases hbz

section

variable {cfg} {content : DAContent}

theorem processed_handleEvent (env : ScanEnv) (blobs : List Bytes) (height : Nat) (isInline : Bool)
    (n : DANode Tx) :
    n.part.processed ⊆ (handleEvent cfg env blobs height isInline n).node.part.processed := by
  cases isInline with
  | false => exact List.Subset.refl _
  | true =>
    rcases handleEvent_inline cfg env blobs height n with ⟨hnode, -⟩ | ⟨hnode, -⟩
    · rw [hnode]
      exact List.Subset.refl _
    · rw [hnode, processed_scan]
      exact List.subset_append_left ..

variable {n : DANode Tx} {env : CatchupEnv} {daHeight : Nat} {hints hints' : List Nat}
  {res : Handled Tx}

/-- An inline event that is handled with success has been scanned. -/
theorem processed_of_inline {env : ScanEnv} {blobs : List Bytes} {height : Nat}
    (hok : (handleEvent cfg env blobs height true n).err = none) {bz : Bytes}
    (hbz : bz ∈ blobs ∨ (height, bz) ∈ n.part.processed) :
    (height, bz) ∈ (handleEvent cfg env blobs height true n).node.part.processed := by
  rcases handleEvent_inline cfg env blobs height n with ⟨-, hne⟩ | ⟨hnode, -⟩
  · exact absurd hok hne
  · rw [hnode, processed_scan]
    rcases hbz with hmem | hmem
    · exact List.mem_append_right _ (List.mem_map_of_mem hmem)
    · exact List.mem_append_left _ hmem

/-- `HandleCatchup` forgets nothing, and it fetches the height itself before it returns nil. -/
theorem handleCatchup_cases
    (hres : handleCatchup cfg env daHeight hints n = (hints', res)) :
    ∃ n' : DANode Tx, n.part.processed ⊆ n'.part.processed ∧
      (res.err ≠ none ∧ res.node = n' ∨
        res.err = (fetchAndPipeHeight cfg env.sequential daHeight n').err ∧
          res.node = (fetchAndPipeHeight cfg env.sequential daHeight n').node) := by
  have hcases := handleCatchup_invariant cfg env daHeight
    (fun _ n' => n.part.processed ⊆ n'.part.processed)
    (fun hint _ n' hn' => List.Subset.trans hn' (processed_fetchAndPipeHeight cfg (env.hint hint) hint n'))
    hints [] n (List.Subset.refl _)
  rw [hres] at hcases
  rcases hcases with ⟨hints'', r, heq, herr, hsub⟩ | ⟨hints'', events, n', hsub, heq⟩
  · cases heq
    exact ⟨_, hsub, .inl ⟨herr, rfl⟩⟩
  · cases heq
    exact ⟨n', hsub, .inr ⟨rfl, rfl⟩⟩

theorem processed_handleCatchup
    (hres : handleCatchup cfg env daHeight hints n = (hints', res)) :
    n.part.processed ⊆ res.node.part.processed := by
  obtain ⟨n', hsub, ⟨-, hnode⟩ | ⟨-, hnode⟩⟩ := handleCatchup_cases hres
  · rwa [hnode]
  · rw [hnode]
    exact List.Subset.trans hsub (processed_fetchAndPipeHeight ..)

theorem processed_of_caughtUp
    (hres : handleCatchup cfg env daHeight hints n = (hints', res))
    (hda : content.Faithful env.sequential.client daHeight) (hok : res.err = none) {bz : Bytes}
    (hbz : bz ∈ content.blobs daHeight) : (daHeight, bz) ∈ res.node.part.processed := by
  obtain ⟨n', -, ⟨herr, -⟩ | ⟨herr, hnode⟩⟩ := handleCatchup_cases hres
  · exact absurd hok herr
  · rw [hnode]
    exact processed_of_fetched cfg n' hda (herr.symm.trans hok) hbz

end

/-! ## One step of the process -/

variable [Transaction Tx]

/-- What an operation can do to a running follower. -/
inductive Performs (f : DAFollower Tx) : Op Tx → DAFollower Tx → Prop
  | idle {op : Op Tx} : Performs f op f
  | subscriber {op : Subscriber.Op} (hop : op.isHandler = false) :
      Performs f (.subscriber op) { f with subscriber := f.subscriber.step op }
  | received {height : Nat} {blobs : List Bytes} (hfollow : f.subscriber.follow = .waiting) :
      Performs f (.receive height blobs)
        { f with subscriber := f.subscriber.receive height, blobs := blobs }
  | eventHandled {env : ScanEnv} {height : Nat} {isInline : Bool} {res : Handled Tx}
      (hfollow : f.subscriber.follow = .handling height isInline)
      (hres : handleEvent cfg env f.blobs height isInline f.node = res) :
      Performs f (.handleEvent env)
        { f with
          subscriber := f.subscriber.followReturn res.err
          node := res.node
          handed := f.handed ++ res.events }
  | caughtUp {env : CatchupEnv} {localHeight highest : Nat} {hints : List Nat} {res : Handled Tx}
      (hcatchup : f.subscriber.catchup = .handling localHeight highest)
      (hres : handleCatchup cfg env localHeight f.priorityHeights f.node = (hints, res)) :
      Performs f (.handleCatchup env)
        { f with
          subscriber := f.subscriber.catchupReturn res.err
          node := res.node
          priorityHeights := hints
          handed := f.handed ++ res.events }
  | queued {daHeight : Nat} :
      Performs f (.queuePriorityHeight daHeight)
        { f with priorityHeights := queuePriorityHeight daHeight f.priorityHeights }
  | syncer {op : Syncer.Op Tx} {n' : DANode Tx} (hop : ∀ done event, op ≠ .pipeEvent done event)
      (h : Hooked.Moves DARetriever.hooks cfg.toSyncerConfig f.node op n') :
      Performs f (.syncer op) { f with node := n' }

theorem perform_performs (f : DAFollower Tx) (op : Op Tx) : Performs cfg f op (perform cfg f op) := by
  cases op with
  | subscriber op =>
    cases op with
    | receive | followReturn | catchupReturn => exact .idle
    | _ => exact .subscriber rfl
  | receive height blobs =>
    unfold perform
    cases hfollow : f.subscriber.follow with
    | waiting => exact .received hfollow
    | _ => exact .idle
  | handleEvent env =>
    unfold perform
    cases hfollow : f.subscriber.follow with
    | handling height isInline => exact .eventHandled hfollow rfl
    | _ => exact .idle
  | handleCatchup env =>
    unfold perform
    cases hcatchup : f.subscriber.catchup with
    | handling localHeight highest => exact .caughtUp hcatchup rfl
    | _ => exact .idle
  | queuePriorityHeight daHeight => exact .queued
  | syncer op => exact .idle

variable {l : Live (DAFollower Tx)}

/-- **One step of a running follower.** -/
theorem step_performs (hup : l.up = true) (op : Op Tx) :
    Performs cfg l.state op (step cfg l op).state := by
  have hcall : ∀ op : Op Tx, Performs cfg l.state op
      (l.call (modify fun f => perform cfg f op : Proc (DAFollower Tx) Err Unit)).state :=
    fun op => (Live.call_up hup).symm ▸ perform_performs cfg l.state op
  have hnode : ∀ op : Syncer.Op Tx, Hooked.Moves hooks cfg.toSyncerConfig l.state.node op
      (Hooked.step hooks cfg.toSyncerConfig ⟨l.up, l.state.node⟩ op).state :=
    fun op => Hooked.step_moves _ _ (l := ⟨l.up, l.state.node⟩) hup op
  cases op with
  | syncer op =>
    cases op with
    | start | pipeEvent => exact .idle
    | _ => exact .syncer (fun _ _ => nofun) (hnode _)
  | _ => exact hcall _

theorem up_of_step {op : Op Tx} (h : (step cfg l op).up = true) :
    l.up = true := by
  cases op with
  | syncer op =>
    by_contra hdown
    have hdown : l.up = false := by simpa using hdown
    cases op with
    | start | pipeEvent => exact absurd h (by simp [step, hdown])
    | _ =>
      obtain ⟨_, hop, _⟩ := Hooked.fresh_of_up hooks cfg.toSyncerConfig
        (l := ⟨l.up, l.state.node⟩) hdown h
      cases hop
  | _ => exact Live.up_of_call h

theorem invariant (cond : DAFollower Tx → Op Tx → Prop) (Inv : DAFollower Tx → Prop)
    (hperforms : ∀ {f op f'}, Inv f → cond f op → Performs cfg f op f' → Inv f')
    (ops : List (Op Tx)) (hinit : Inv l.state)
    (hrun : Run.Meets (step cfg) (fun l op => cond l.state op) l ops)
    (hup : (Run.exec (step cfg) l ops).up = true) : Inv (Run.exec (step cfg) l ops).state := by
  refine Run.invariant (fun l : Live (DAFollower Tx) => l.up = true → Inv l.state) ?_ ops l
    (fun _ => hinit) hrun hup
  intro l op hinv hop hup
  have hl := up_of_step cfg hup
  exact hperforms (hinv hl) hop (step_performs cfg hl op)

/-! ## Which blobs are read -/

/-- What the DA client answers for the claimed height is what is there, or an error. -/
def Answered (content : DAContent) (f : DAFollower Tx) : Op Tx → Prop
  | .handleCatchup env =>
    match f.subscriber.catchup with
    | .handling localHeight _ => content.Faithful env.sequential.client localHeight
    | _ => True
  | _ => True

/-- An inline event that is handled with success completes the blobs of its DA height, and a rollback
does not set `localDAHeight` forward. -/
def Complete (content : DAContent) (f : DAFollower Tx) : Op Tx → Prop
  | .subscriber op => f.subscriber.RollsBack op
  | .handleEvent env =>
    match f.subscriber.follow with
    | .handling height true =>
      (handleEvent cfg env f.blobs height true f.node).err = none →
        ∀ bz ∈ content.blobs height, bz ∈ f.blobs ∨ (height, bz) ∈ f.node.part.processed
    | _ => True
  | _ => True

instance (content : DAContent) (f : DAFollower Tx) : DecidablePred (Answered content f)
  | .handleCatchup env =>
    match h : f.subscriber.catchup with
    | .handling localHeight _ =>
      decidable_of_iff (content.Faithful env.sequential.client localHeight) (by simp [Answered, h])
    | .waiting | .top | .loaded _ | .behind _ _ | .failed _ _ _ | .backingOff =>
      .isTrue (by simp [Answered, h])
  | .subscriber _ | .receive _ _ | .handleEvent _ | .queuePriorityHeight _ | .syncer _ =>
    .isTrue trivial

instance (content : DAContent) (f : DAFollower Tx) : DecidablePred (Complete cfg content f)
  | .subscriber op => inferInstanceAs (Decidable (f.subscriber.RollsBack op))
  | .handleEvent env =>
    match h : f.subscriber.follow with
    | .handling height true =>
      decidable_of_iff ((handleEvent cfg env f.blobs height true f.node).err = none →
        ∀ bz ∈ content.blobs height, bz ∈ f.blobs ∨ (height, bz) ∈ f.node.part.processed)
        (by simp only [Complete, h])
    | .handling _ false | .waiting | .received _ | .loaded _ _ | .succeeded _ | .failed _ =>
      .isTrue (by simp [Complete, h])
  | .receive _ _ | .handleCatchup _ | .queuePriorityHeight _ | .syncer _ => .isTrue trivial

/-- The heights below `localDAHeight` are handled or claimed, and the blobs of those handled have been
processed. -/
structure Read (content : DAContent) (startHeight : Nat) (f : DAFollower Tx) : Prop where
  covered : f.subscriber.claims.Covered startHeight
  processed : ∀ h ∈ f.subscriber.handled, ∀ bz ∈ content.blobs h, (h, bz) ∈ f.node.part.processed

variable {cfg} {content : DAContent} {startHeight : Nat} {f f' : DAFollower Tx} {op : Op Tx}

theorem Performs.processed (h : Performs cfg f op f') :
    f.node.part.processed ⊆ f'.node.part.processed := by
  cases h with
  | idle | subscriber | received | queued => exact List.Subset.refl _
  | eventHandled hfollow hres =>
    subst hres
    exact processed_handleEvent ..
  | caughtUp hcatchup hres => exact processed_handleCatchup hres
  | syncer _ h =>
    rcases DANode.part_of_moves h with heq | ⟨event, -, -, heq⟩
    · rw [heq]
      exact List.Subset.refl _
    · rw [heq]
      exact List.Subset.refl _

/-- A step of the follower is one of the subscriber, or leaves the subscriber alone. -/
theorem Performs.subscriber_refines (h : Performs cfg f op f') (hop : Complete cfg content f op) :
    f.subscriber.Refines f'.subscriber := by
  cases h with
  | idle | queued | syncer => exact .inl rfl
  | subscriber => exact Subscriber.refines_step _ _ hop
  | received => exact Subscriber.refines_receive ..
  | eventHandled => exact Subscriber.refines_followReturn ..
  | caughtUp => exact Subscriber.refines_catchupReturn ..

/-- **One step.** A height is handled only when all its blobs have been processed. -/
theorem Read.step (h : Read content startHeight f) (hda : Answered content f op)
    (hop : Complete cfg content f op) (hstep : Performs cfg f op f') : Read content startHeight f' := by
  refine ⟨(hstep.subscriber_refines hop).covered h.covered, fun height hmem bz hbz => ?_⟩
  have hold : height ∈ f.subscriber.handled → (height, bz) ∈ f'.node.part.processed :=
    fun hm => hstep.processed (h.processed height hm bz hbz)
  cases hstep with
  | idle | queued | syncer => exact hold hmem
  | subscriber hnot => exact hold (Subscriber.handled_step hnot ▸ hmem)
  | received => exact hold (Subscriber.handled_receive .. ▸ hmem)
  | eventHandled hfollow hres =>
    rcases Subscriber.handled_followReturn hfollow hmem with hm | ⟨rfl, rfl, hok⟩
    · exact hold hm
    · subst hres
      unfold Complete at hop
      rw [hfollow] at hop
      exact processed_of_inline hok (hop hok bz hbz)
  | caughtUp hcatchup hres =>
    rcases Subscriber.handled_catchupReturn hcatchup hmem with hm | ⟨rfl, hok⟩
    · exact hold hm
    · unfold Answered at hda
      rw [hcatchup] at hda
      exact processed_of_caughtUp hres hda hok hbz

/--
**The inline path reads what the catch-up path reads.**

In every interleaving of subscription events, catch-up steps, hints and the work of the syncer, with
failures in any pattern: once `localDAHeight` is past a DA height that no handler call has claimed, every
blob of both namespaces at this height has been processed.

The DA client answers for a claimed height with what is there or with an error. An inline event that is
handled with success completes the blobs of its height, and a rollback does not set `localDAHeight`
forward.
-/
theorem passed_heights_read (cfg : DANodeConfig Tx) (content : DAContent) (startHeight : Nat)
    (syncer : Syncer Tx) (ops : List (Op Tx))
    (hda : Run.Meets (DAFollower.step cfg) (fun l => Answered content l.state)
      ⟨true, started startHeight syncer⟩ ops)
    (hrun : Run.Meets (DAFollower.step cfg) (fun l => Complete cfg content l.state)
      ⟨true, started startHeight syncer⟩ ops)
    (hup : (Run.exec (DAFollower.step cfg) ⟨true, started startHeight syncer⟩ ops).up = true) :
    let f := (Run.exec (DAFollower.step cfg) ⟨true, started startHeight syncer⟩ ops).state
    ∀ h, startHeight ≤ h → h < f.subscriber.localDAHeight →
      (∃ k, f.subscriber.claim k = some h) ∨
        ∀ bz ∈ content.blobs h, (h, bz) ∈ f.node.part.processed := by
  intro f
  have hinit : Read content startHeight (started startHeight syncer) := by
    refine ⟨fun v hge hlt => absurd hge (Nat.not_le.mpr hlt), fun h hmem => ?_⟩
    cases hmem
  have hread : Read content startHeight f :=
    invariant cfg (fun f op => Answered content f op ∧ Complete cfg content f op) _
      (fun h hcond hstep => h.step hcond.1 hcond.2 hstep) ops hinit (hda.and hrun) hup
  intro h hge hlt
  exact (hread.covered h hge hlt).symm.imp_right fun hmem => hread.processed h hmem

end DAFollower

/-! ## Concrete runs -/

namespace InlineRun

def genesis : Genesis := ⟨"chain", 0, 1, [7], 0, 1, Nat.one_pos, Nat.one_pos⟩

def tx : RawTx := ⟨3, 5⟩

/-- Block 1 is empty. -/
def first : Header := .block [7] 1 [] []

def second : Header := .block [7] 2 [tx] first.encode

/-- The headers of the blocks 1 and 2, and the data of block 2. -/
def cfg : DANodeConfig RawTx :=
  .symbolic genesis [([1], first.signedBy [7]), ([3], second.signedBy [7])]
    [([2], (Data.block 2 [tx]).signedBy [7])]

def syncer : Syncer RawTx :=
  (Run.exec (DANode.step cfg) ⟨false, .plain cfg⟩ [.syncer (.start .plain)]).state.syncer

/-- The header of block 2 is one DA height above its data. -/
def content : DAContent where
  sameNamespace := false
  headers h := if h = 10 then [[1]] else if h = 11 then [[3]] else []
  data h := if h = 10 then [[2]] else []

/-- The header of block 2 is at the DA height of its data. -/
def together : DAContent where
  sameNamespace := false
  headers h := if h = 10 then [[3]] else []
  data h := if h = 10 then [[2]] else []

def env (content : DAContent) : CatchupEnv :=
  ⟨fun _ => ⟨content.client, .plain 0⟩, ⟨content.client, .plain 0⟩⟩

/-- An event of the subscription, up to the return of `HandleEvent`. -/
def event (height : Nat) (blobs : List Bytes) : List (DAFollower.Op RawTx) :=
  [.receive height blobs, .subscriber .followLoad, .subscriber .followSwap, .handleEvent (.plain 0)]

/-- The catch-up loop handles a height. -/
def caughtUp (content : DAContent) : List (DAFollower.Op RawTx) :=
  [.subscriber (.catchupLoad false), .subscriber .catchupLoadHighest, .subscriber .catchupSwap,
    .handleCatchup (env content)]

def run (ops : List (DAFollower.Op RawTx)) : DAFollower RawTx :=
  (Run.exec (DAFollower.step cfg) ⟨true, .started 10 syncer⟩ ops).state

/-- The header of block 1 comes first and is handled inline. The data at its height comes late. Header 2
alone is no block, and is left to the catch-up loop. -/
def late : List (DAFollower.Op RawTx) :=
  event 10 [[1]] ++ [.subscriber .followHead] ++ event 10 [[2]] ++ event 11 [[3]] ++
    [.subscriber .followRollback, .subscriber .wake] ++ caughtUp content ++
    [.subscriber (.catchupLoad false), .subscriber .catchupLoadHighest]

/-- Header 2 alone is rolled back, and with its data the block is complete. There is nothing at DA height
11. -/
def inTime : List (DAFollower.Op RawTx) :=
  event 10 [[3]] ++ [.subscriber .followRollback] ++ event 10 [[2]] ++
    [.subscriber .followHead, .subscriber (.poll 11), .subscriber .wake] ++ caughtUp together

end InlineRun

open InlineRun in
/-- **The blobs of the other namespace are not read.** Both heights are handled, and the head is reached.
The data at DA height 10 has never been processed, and block 2 is not found. -/
theorem DAFollower.other_namespace_unread :
    (run late).subscriber.localDAHeight = 12 ∧ (run late).subscriber.headReached = true ∧
      (run late).subscriber.handled = [11, 10] ∧ (∀ k, (run late).subscriber.claim k = none) ∧
      [2] ∈ content.blobs 10 ∧ (10, [2]) ∉ (run late).node.part.processed ∧
      (run late).handed.map (fun event => event.header.header.height) = [1] := by
  refine ⟨by decide +kernel, by decide +kernel, by decide +kernel, fun k => ?_, by decide +kernel,
    by decide +kernel, by decide +kernel⟩
  cases k <;> decide +kernel

open InlineRun in
theorem DAFollower.passed_heights_read_inTime :
    (run inTime).subscriber.localDAHeight = 12 ∧
      ∀ h, 10 ≤ h → h < (run inTime).subscriber.localDAHeight →
        (∃ k, (run inTime).subscriber.claim k = some h) ∨
          ∀ bz ∈ together.blobs h, (h, bz) ∈ (run inTime).node.part.processed :=
  ⟨by decide +kernel, DAFollower.passed_heights_read cfg together 10 syncer inTime
    (by decide +kernel) (by decide +kernel) (by decide +kernel)⟩

end EvNode
