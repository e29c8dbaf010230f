import Mathlib.Logic.Function.Basic
import NetfabricBgp.Runs

/-!
Nodes that are joined by queues. What a node tells goes on every link that leads away from it,
comes from there into the inbox of the node that the link leads to, and is heard there. A link
may lose what it carries, and a node may miss what is in its inbox. Whatever happens, a node
hears a merge of what was offered to its links, and no link changes an order.
-/
namespace NetfabricBgp.QueueNets

variable {ι κ σ τ μ : Type*}

/-- Where the links lead, what a node makes of a message, and what it tells. -/
structure Nodes (ι κ σ τ μ : Type*) where
  source : κ → Option ι
  target : κ → Option ι
  hear : ι → σ → μ → σ
  tell : ι → σ → τ → μ × σ

structure Net (ι κ σ μ : Type*) where
  state : ι → σ
  inbox : ι → List μ
  link : κ → List μ

inductive Act (ι κ τ μ : Type*)
  | tell (i : ι) (input : τ)
  | deliver (c : κ)
  | hear (i : ι)
  | miss (i : ι)
  | arrive (c : κ) (message : μ)
  | lose (c : κ) (start count : ℕ)

/-- What can be noticed of an act. -/
inductive Note (ι κ μ : Type*)
  | told (i : ι) (message : μ)
  | heard (i : ι) (message : μ)
  | missed (i : ι) (message : μ)
  | arrived (c : κ) (message : μ)

/-- An act takes a message from where there is none, or puts one on the link of a node. -/
inductive Impossible
  | nothing
  | foreign

section Acting
variable [DecidableEq ι] [DecidableEq κ]

def step (nodes : Nodes ι κ σ τ μ) (net : Net ι κ σ μ) :
    Act ι κ τ μ → Except Impossible (Net ι κ σ μ × Option (Note ι κ μ))
  | .tell i input =>
    let (message, state) := nodes.tell i (net.state i) input
    .ok ({ net with
        state := Function.update net.state i state
        link := fun c =>
          if nodes.source c = some i then net.link c ++ [message] else net.link c },
      some (.told i message))
  | .deliver c =>
    match nodes.target c, net.link c with
    | some i, message :: rest =>
      .ok ({ net with
          inbox := Function.update net.inbox i (net.inbox i ++ [message])
          link := Function.update net.link c rest }, none)
    | _, _ => .error .nothing
  | .hear i =>
    match net.inbox i with
    | message :: rest =>
      .ok ({ net with
          state := Function.update net.state i (nodes.hear i (net.state i) message)
          inbox := Function.update net.inbox i rest }, some (.heard i message))
    | [] => .error .nothing
  | .miss i =>
    match net.inbox i with
    | message :: rest =>
      .ok ({ net with inbox := Function.update net.inbox i rest }, some (.missed i message))
    | [] => .error .nothing
  | .arrive c message =>
    match nodes.source c with
    | none =>
      .ok ({ net with link := Function.update net.link c (net.link c ++ [message]) },
        some (.arrived c message))
    | some _ => .error .foreign
  | .lose c start count =>
    .ok ({ net with
      link := Function.update net.link c
        ((net.link c).take start ++ (net.link c).drop (start + count)) }, none)

def run (nodes : Nodes ι κ σ τ μ) (net : Net ι κ σ μ) (acts : List (Act ι κ τ μ)) :
    Except Impossible (Net ι κ σ μ × List (Note ι κ μ)) :=
  Runs.collect (step nodes) net acts

/-- What was put on a link. -/
def offers (nodes : Nodes ι κ σ τ μ) (c : κ) : Note ι κ μ → List μ
  | .told i message => if nodes.source c = some i then [message] else []
  | .arrived other message => if other = c then [message] else []
  | _ => []

/-- What was taken from an inbox. -/
def handles (i : ι) : Note ι κ μ → List μ
  | .heard j message => if j = i then [message] else []
  | .missed j message => if j = i then [message] else []
  | _ => []

/-- The messages that came over a link. -/
def cameOver (c : κ) (log : List (κ × μ)) : List μ :=
  (log.filter (fun entry => entry.1 = c)).map Prod.snd

end Acting

/-- The act loses something on a link. -/
def Loses (c : κ) : Act ι κ τ μ → Prop
  | .lose other _ _ => other = c
  | _ => False

section Delivering
variable [DecidableEq ι] [DecidableEq κ] {nodes : Nodes ι κ σ τ μ} {net : Net ι κ σ μ}

/-- The first messages of a link come into the inbox one after the other. -/
theorem run_deliver {i : ι} {c : κ} {front rest : List μ} (htarget : nodes.target c = some i)
    (hlink : net.link c = front ++ rest) :
    run nodes net (List.replicate front.length (.deliver c)) =
      .ok ({ net with
        inbox := Function.update net.inbox i (net.inbox i ++ front)
        link := Function.update net.link c rest }, []) := by
  induction front generalizing net with
  | nil =>
    rw [List.nil_append] at hlink
    rw [List.append_nil, ← hlink, Function.update_eq_self, Function.update_eq_self]
    rfl
  | cons message front ih =>
    have hlater := @ih { net with
      inbox := Function.update net.inbox i (net.inbox i ++ [message])
      link := Function.update net.link c (front ++ rest) } (Function.update_self ..)
    simp only [Function.update_self, Function.update_idem, List.append_assoc,
      List.singleton_append] at hlater
    refine Runs.collect_cons_ok.mpr ⟨_, none, [], ?_, hlater, rfl⟩
    simp only [step, htarget, hlink, List.cons_append]

/-- A stretch of a link is lost. -/
theorem step_lose {c : κ} {front lost rest : List μ}
    (hlink : net.link c = front ++ (lost ++ rest)) :
    step nodes net (.lose c front.length lost.length) =
      .ok ({ net with link := Function.update net.link c (front ++ rest) }, none) := by
  have hfront : (net.link c).take front.length = front := by rw [hlink, List.take_left]
  have hrest : (net.link c).drop (front.length + lost.length) = rest := by
    rw [hlink, ← List.drop_drop, List.drop_left, List.drop_left]
  simp only [step, hfront, hrest]

end Delivering

section Accounts
variable [DecidableEq ι] [DecidableEq κ] {nodes : Nodes ι κ σ τ μ} {net net' : Net ι κ σ μ}
  {act : Act ι κ τ μ} {note : Option (Note ι κ μ)}

theorem cameOver_append (c : κ) (log log' : List (κ × μ)) :
    cameOver c (log ++ log') = cameOver c log ++ cameOver c log' := by
  simp [cameOver]

theorem cameOver_singleton (c c' : κ) (message : μ) :
    cameOver c [(c', message)] = if c' = c then [message] else [] := by
  by_cases hc : c' = c
  · simp [cameOver, hc]
  · simp [cameOver, hc]

/-- What was taken from an inbox and what is in it came over the links. What came over a link,
with what is still on it, stands in this relation to what was offered to it. -/
structure Accounts (R : κ → List μ → List μ → Prop) (nodes : Nodes ι κ σ τ μ) (net : Net ι κ σ μ)
    (notes : List (Note ι κ μ)) (log : ι → List (κ × μ)) : Prop where
  inbox : ∀ i, (log i).map Prod.snd = notes.flatMap (handles i) ++ net.inbox i
  targets : ∀ i, ∀ entry ∈ log i, nodes.target entry.1 = some i
  links : ∀ i c, nodes.target c = some i →
    R c (cameOver c (log i) ++ net.link c) (notes.flatMap (offers nodes c))

variable {R : κ → List μ → List μ → Prop} {notes : List (Note ι κ μ)} {log : ι → List (κ × μ)}

/-- What is offered to a link is put at its end. -/
theorem Accounts.offer (h : Accounts R nodes net notes log)
    (happend : ∀ c l l' x, R c l l' → R c (l ++ x) (l' ++ x)) {link : κ → List μ} {state : ι → σ}
    {new : Note ι κ μ} (hhandles : ∀ i, handles i new = [])
    (hlink : ∀ c, link c = net.link c ++ offers nodes c new) :
    Accounts R nodes { net with state := state, link := link } (notes ++ [new]) log := by
  refine ⟨?_, h.targets, ?_⟩
  · intro i
    rw [h.inbox i, List.flatMap_append, List.flatMap_singleton, hhandles, List.append_nil]
  · intro i c hc
    show R c (cameOver c (log i) ++ link c) _
    rw [hlink, List.flatMap_append, List.flatMap_singleton, ← List.append_assoc]
    exact happend c _ _ _ (h.links i c hc)

/-- What is heard or missed is the first of an inbox. -/
theorem Accounts.handle (h : Accounts R nodes net notes log) {i : ι} {message : μ} {rest : List μ}
    (hinbox : net.inbox i = message :: rest) {state : ι → σ} {new : Note ι κ μ}
    (hhandles : ∀ j, handles j new = if i = j then [message] else [])
    (hoffers : ∀ c, offers nodes c new = []) :
    Accounts R nodes { net with state := state, inbox := Function.update net.inbox i rest }
      (notes ++ [new]) log := by
  refine ⟨?_, h.targets, ?_⟩
  · intro j
    rw [h.inbox j, List.flatMap_append, List.flatMap_singleton, hhandles]
    by_cases hj : i = j
    · subst hj
      simp [hinbox]
    · have hne : j ≠ i := fun heq => hj heq.symm
      simp [hj, Function.update_of_ne hne]
  · intro j c hc
    rw [List.flatMap_append, List.flatMap_singleton, hoffers, List.append_nil]
    exact h.links j c hc

theorem Accounts.deliver (h : Accounts R nodes net notes log) {i : ι} {c : κ} {message : μ}
    {rest : List μ} (htarget : nodes.target c = some i) (hlink : net.link c = message :: rest) :
    Accounts R nodes { net with
        inbox := Function.update net.inbox i (net.inbox i ++ [message])
        link := Function.update net.link c rest } notes
      (Function.update log i (log i ++ [(c, message)])) := by
  refine ⟨?_, ?_, ?_⟩
  · intro j
    by_cases hj : j = i
    · subst hj
      simp [h.inbox j]
    · simp only [Function.update_of_ne hj]
      exact h.inbox j
  · intro j entry hentry
    by_cases hj : j = i
    · subst hj
      rw [Function.update_self] at hentry
      rcases List.mem_append.mp hentry with hentry | hentry
      · exact h.targets j entry hentry
      · rw [List.mem_singleton.mp hentry]
        exact htarget
    · rw [Function.update_of_ne hj] at hentry
      exact h.targets j entry hentry
  · intro j c' hc'
    have hlinks := h.links j c' hc'
    by_cases hsame : c' = c
    · subst hsame
      obtain rfl := Option.some.inj (htarget.symm.trans hc')
      rw [hlink] at hlinks
      simpa [cameOver_append, cameOver_singleton] using hlinks
    · have hne : c ≠ c' := fun heq => hsame heq.symm
      by_cases hj : j = i
      · subst hj
        simpa [cameOver_append, cameOver_singleton, hne, Function.update_of_ne hsame] using hlinks
      · simpa [Function.update_of_ne hj, Function.update_of_ne hsame] using hlinks

theorem Accounts.lose (h : Accounts R nodes net notes log) (c : κ) (start count : ℕ)
    (hlose : ∀ l m r t, R c (l ++ (m ++ r)) t → R c (l ++ r) t) :
    Accounts R nodes { net with
        link := Function.update net.link c
          ((net.link c).take start ++ (net.link c).drop (start + count)) } notes log := by
  refine ⟨h.inbox, h.targets, ?_⟩
  intro i c' hc'
  have hlinks := h.links i c' hc'
  by_cases hsame : c' = c
  · subst hsame
    have hsplit : net.link c' = (net.link c').take start ++
        (((net.link c').drop start).take count ++ (net.link c').drop (start + count)) := by
      rw [← List.drop_drop, List.take_append_drop, List.take_append_drop]
    rw [hsplit, ← List.append_assoc] at hlinks
    show R c' (cameOver c' (log i) ++ Function.update net.link c' _ c') _
    rw [Function.update_self, ← List.append_assoc]
    exact hlose _ _ _ _ hlinks
  · show R c' (cameOver c' (log i) ++ Function.update net.link c _ c') _
    rw [Function.update_of_ne hsame]
    exact hlinks

/-- An act is entered into the accounts. -/
theorem Accounts.step (h : Accounts R nodes net notes log)
    (happend : ∀ c l l' x, R c l l' → R c (l ++ x) (l' ++ x))
    (hlose : ∀ c, Loses c act → ∀ l m r t, R c (l ++ (m ++ r)) t → R c (l ++ r) t)
    (hstep : step nodes net act = .ok (net', note)) :
    ∃ log', Accounts R nodes net' (notes ++ note.toList) log' := by
  cases act with
  | tell i input =>
    obtain ⟨rfl, rfl⟩ := Prod.mk.inj (Except.ok.inj hstep)
    refine ⟨log, h.offer happend (fun _ => rfl) ?_⟩
    intro c
    by_cases hc : nodes.source c = some i
    · simp [offers, hc]
    · simp [offers, hc]
  | deliver c =>
    simp only [QueueNets.step] at hstep
    split at hstep
    next i message rest htarget hlink =>
      obtain ⟨rfl, rfl⟩ := Prod.mk.inj (Except.ok.inj hstep)
      rw [Option.toList_none, List.append_nil]
      exact ⟨_, h.deliver htarget hlink⟩
    next => cases hstep
  | hear i =>
    simp only [QueueNets.step] at hstep
    split at hstep
    next message rest hinbox =>
      obtain ⟨rfl, rfl⟩ := Prod.mk.inj (Except.ok.inj hstep)
      exact ⟨log, h.handle hinbox (fun _ => rfl) (fun _ => rfl)⟩
    next => cases hstep
  | miss i =>
    simp only [QueueNets.step] at hstep
    split at hstep
    next message rest hinbox =>
      obtain ⟨rfl, rfl⟩ := Prod.mk.inj (Except.ok.inj hstep)
      exact ⟨log, h.handle hinbox (fun _ => rfl) (fun _ => rfl)⟩
    next => cases hstep
  | arrive c message =>
    simp only [QueueNets.step] at hstep
    split at hstep
    next hsource =>
      obtain ⟨rfl, rfl⟩ := Prod.mk.inj (Except.ok.inj hstep)
      refine ⟨log, h.offer happend (fun _ => rfl) ?_⟩
      intro c'
      by_cases hc : c' = c
      · subst hc
        simp [offers]
      · have hne : c ≠ c' := fun heq => hc heq.symm
        simp [offers, hne, Function.update_of_ne hc]
    next => cases hstep
  | lose c start count =>
    obtain ⟨rfl, rfl⟩ := Prod.mk.inj (Except.ok.inj hstep)
    rw [Option.toList_none, List.append_nil]
    exact ⟨log, h.lose c start count (hlose c rfl)⟩

theorem Accounts.run {acts : List (Act ι κ τ μ)} {later : List (Note ι κ μ)}
    (h : Accounts R nodes net notes log)
    (happend : ∀ c l l' x, R c l l' → R c (l ++ x) (l' ++ x))
    (hlose : ∀ act ∈ acts, ∀ c, Loses c act →
      ∀ l m r t, R c (l ++ (m ++ r)) t → R c (l ++ r) t)
    (hrun : run nodes net acts = .ok (net', later)) :
    ∃ log', Accounts R nodes net' (notes ++ later) log' := by
  induction acts generalizing net notes later log with
  | nil =>
    obtain ⟨rfl, rfl⟩ := Prod.mk.inj (Except.ok.inj hrun)
    exact ⟨log, by rwa [List.append_nil]⟩
  | cons act rest ih =>
    obtain ⟨next, note, notes', hstep, hrest, rfl⟩ := Runs.collect_cons_ok.mp hrun
    obtain ⟨log', hnext⟩ := h.step happend (hlose act List.mem_cons_self) hstep
    rw [← List.append_assoc]
    exact ih hnext (fun other hother => hlose other (List.mem_cons_of_mem _ hother)) hrest

/-- Nothing on the way to any node, and nothing in the inboxes. -/
structure Idle (nodes : Nodes ι κ σ τ μ) (net : Net ι κ σ μ) : Prop where
  inbox : ∀ i, net.inbox i = []
  link : ∀ c i, nodes.target c = some i → net.link c = []

theorem Idle.accounts (h : Idle nodes net) (hnil : ∀ c, R c [] []) :
    Accounts R nodes net [] (fun _ => []) := by
  refine ⟨?_, ?_, ?_⟩
  · intro i
    simp [h.inbox i]
  · exact fun i entry hentry => absurd hentry List.not_mem_nil
  · intro i c hc
    simpa [cameOver, h.link c i hc] using hnil c

/-- From an idle net, what a node has taken from its inbox and what is there are a merge of
what came over its links. Nothing comes over a link twice, or in another order than it was
offered, and where nothing is lost, all that was offered has come or is still on the link. -/
theorem Idle.run (h : Idle nodes net) {acts : List (Act ι κ τ μ)}
    (hrun : QueueNets.run nodes net acts = .ok (net', notes)) :
    ∃ log, Accounts (fun c l l' => l.Sublist l' ∧ ((∀ act ∈ acts, ¬ Loses c act) → l = l')) nodes
      net' notes log := by
  refine (h.accounts (fun _ => ⟨List.Sublist.refl [], fun _ => rfl⟩)).run ?_ ?_ hrun
  · rintro c l l' x ⟨hsub, heq⟩
    exact ⟨hsub.append_right x, fun hlossless => by rw [heq hlossless]⟩
  · intro act hact c hloses l m r t hR
    refine ⟨?_, fun hlossless => absurd hloses (hlossless act hact)⟩
    exact ((List.sublist_append_right m r).append_left l).trans hR.1

end Accounts

end NetfabricBgp.QueueNets
