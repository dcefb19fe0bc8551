import BcmPcie.Irq.ServiceRefinement

/-! # Servers that were taken away

A driver may give up the memory of a server once the library has taken it from its vector: no interrupt
calls it after that, whatever the slot is used for next, unless it is put on a vector again. It is a fact
about the service, where nothing is shared, and one about the interrupt layer since that is the service.

* `Service.Answers.change` — what a call can do to a service.
* `Service.Answers.server_mem` — where the servers of a service come from.
* `removed_uncalled` — a server that was taken away is not called. -/

namespace BcmPcie

open Simulations

variable {ι σ : Type*}

/-- The call puts the server on a vector, if it succeeds. -/
def LibCall.Adds (server : Interrupt) : LibCall ι → Prop
  | .vector (.addIntVectorServer _ _ isr) => isr = some server
  | .addIntServer isr _ => isr = some server
  | _ => False

instance (server : Interrupt) (c : LibCall ι) : Decidable (c.Adds server) := by
  unfold LibCall.Adds
  split <;> infer_instance

/-- The call leaves the vectors of a device and their servers alone. -/
def LibCall.Spares (i : ι) : LibCall ι → Prop
  | .vector (.allocIntVectors dev _ _ _) => dev ≠ some i
  | .vector (.freeIntVectors dev) => dev ≠ some i
  | .vector (.addIntVectorServer dev _ _) => dev ≠ some i
  | .vector (.remIntVectorServer dev _ _) => dev ≠ some i
  | .addIntServer _ dev => dev ≠ some i
  | .remIntServer _ dev => dev ≠ some i
  | _ => True

/-- A label of a call that puts the server on a vector, if it succeeds. -/
def ServiceLabel.Adds (server : Interrupt) : ServiceLabel ι → Prop
  | .call c _ => c.Adds server
  | _ => False

/-! ## In the service -/

namespace Client

variable {c : Client} {v w : ℕ} {server : Interrupt} {a : Attachment}

/-- After a server is attached every server was there before or is this one. -/
theorem server_of_attach (h : (c.attach v server).vecs w = some a) :
    c.vecs w = some a ∨ a.server = server := by
  by_cases hw : w = v
  · rw [hw] at h
    have h : Function.update c.vecs v (some ⟨server, false, false⟩) v = some a := h
    rw [Function.update_self] at h
    exact Or.inr (congrArg Attachment.server (Option.some.inj h)).symm
  · have h : Function.update c.vecs v (some ⟨server, false, false⟩) w = some a := h
    rw [Function.update_of_ne hw] at h
    exact Or.inl h

/-- After a server is detached every server was there before and is not this one. -/
theorem vecs_of_detach (h : (c.detach v server).vecs w = some a) :
    c.vecs w = some a ∧ (w = v → a.server ≠ server) := by
  unfold detach at h
  split at h
  · by_cases hw : w = v
    · have h : Function.update c.vecs v none w = some a := h
      rw [hw, Function.update_self] at h
      cases h
    · have h : Function.update c.vecs v none w = some a := h
      rw [Function.update_of_ne hw] at h
      exact ⟨h, fun heq => absurd heq hw⟩
  · rename_i hnot
    refine ⟨h, fun hw hserver => hnot ?_⟩
    rw [← hw, h]
    exact congrArg some hserver

/-- What changes one vector without changing its server. -/
theorem exists_of_setVec_map {f : Attachment → Attachment} (hf : ∀ b, (f b).server = b.server)
    (h : (c.setVec v ((c.vecs v).map f)).vecs w = some a) :
    ∃ b, c.vecs w = some b ∧ b.server = a.server := by
  have h : Function.update c.vecs v ((c.vecs v).map f) w = some a := h
  by_cases hw : w = v
  · rw [hw, Function.update_self] at h
    obtain ⟨b, hb, rfl⟩ := Option.map_eq_some_iff.1 h
    exact ⟨b, hw ▸ hb, (hf b).symm⟩
  · rw [Function.update_of_ne hw] at h
    exact ⟨a, h, rfl⟩

/-- Holding a vector back leaves its server. -/
theorem exists_of_hold {held : Bool} (h : (c.hold v held).vecs w = some a) :
    ∃ b, c.vecs w = some b ∧ b.server = a.server := by
  unfold hold at h
  split at h
  · exact exists_of_setVec_map (f := fun b => { b with held := held }) (fun _ => rfl) h
  · exact ⟨a, h, rfl⟩

end Client

namespace Service

/-- No vector has the server. -/
def Without (S : Service ι) (server : Interrupt) : Prop :=
  ∀ i v a, (S i).vecs v = some a → a.server ≠ server

/-- No vector but one has the server. -/
def OnlyAt (S : Service ι) (server : Interrupt) (i : ι) (v : ℕ) : Prop :=
  ∀ i' v' a, (S i').vecs v' = some a → a.server = server → i' = i ∧ v' = v

/-- Nothing changes, or one client does: it gets new vectors or loses those it has, one of its vectors
gets or loses a server, or is held back or let through. -/
inductive Change [DecidableEq ι] (S : Service ι) (c : LibCall ι) : Service ι → Prop
  | same : Change S c S
  | fresh (i : ι) (n : ℕ) (messages : Bool) (hown : ¬ c.Spares i) :
      Change S c (Function.update S i (.fresh n messages))
  | attach (i : ι) (v : ℕ) (server : Interrupt) (d : Client) (hown : ¬ c.Spares i)
      (hadds : c.Adds server) (hd : d = S i ∨ ∃ messages, d = .fresh 1 messages) :
      Change S c (Function.update S i (d.attach v server))
  | detach (i : ι) (v : ℕ) (server : Interrupt) (hown : ¬ c.Spares i) :
      Change S c (Function.update S i ((S i).detach v server))
  | hold (i : ι) (v : ℕ) (held : Bool) : Change S c (Function.update S i ((S i).hold v held))

variable [DecidableEq ι] {S S' : Service ι} {c : LibCall ι} {answer : Answer} {i j : ι} {v : ℕ}
  {a : Attachment} {server : Interrupt}

/-- Where the servers are after a change of one client. -/
theorem vecs_update {d : Client} (h : ((Function.update S j d) i).vecs v = some a) :
    i = j ∧ d.vecs v = some a ∨ i ≠ j ∧ (S i).vecs v = some a := by
  by_cases hi : i = j
  · rw [hi, Function.update_self] at h
    exact Or.inl ⟨hi, h⟩
  · rw [Function.update_of_ne hi] at h
    exact Or.inr ⟨hi, h⟩

/-- A client whose servers were there before. -/
theorem server_update {d : Client}
    (hd : ∀ w b, d.vecs w = some b → ∃ b', (S j).vecs w = some b' ∧ b'.server = b.server)
    (h : ((Function.update S j d) i).vecs v = some a) :
    ∃ b, (S i).vecs v = some b ∧ b.server = a.server := by
  rcases vecs_update h with ⟨rfl, hnew⟩ | ⟨-, hold⟩
  · exact hd v a hnew
  · exact ⟨a, hold, rfl⟩

/-- **What a call changes**: nothing, or one client. -/
theorem Answers.change (hans : S.Answers c answer S') : S.Change c S' := by
  have hsame (heq : S' = S) : S.Change c S' := heq ▸ .same
  have hfresh {i : ι} {n : ℕ} {messages : Bool} (hown : ¬ c.Spares i)
      (heq : S' = Function.update S i (.fresh n messages)) : S.Change c S' :=
    heq ▸ .fresh i n messages hown
  have hheld {i : ι} {v : ℕ} {held b : Bool} (hold : S.Holds i v held b S') : S.Change c S' :=
    hold.2 ▸ .hold i v held
  -- by the call, and where it may or may not succeed by what it did
  cases c with
  | vector c =>
    cases c with
    | allocIntVectors dev min max flags =>
      cases dev <;> cases answer <;> first | exact absurd hans not_false | skip
      · exact hsame hans.2
      · rcases hans with ⟨-, heq⟩ | ⟨n, -, -, -, -, -, ⟨-, heq⟩ | ⟨-, heq⟩⟩
        · exact hsame heq
        · exact hfresh (fun hc => hc rfl) heq
        · exact hfresh (fun hc => hc rfl) heq
    | freeIntVectors dev =>
      cases dev <;> cases answer <;> first | exact absurd hans not_false | skip
      · exact hsame hans
      · exact hfresh (fun hc => hc rfl) hans
    | addIntVectorServer dev w isr =>
      cases dev <;> cases isr <;> cases answer <;> first | exact absurd hans not_false | skip
      · exact hsame hans.2
      · exact hsame hans.2
      · exact hsame hans.2
      · rcases hans with ⟨-, heq⟩ | ⟨-, -, -, heq⟩
        · exact hsame heq
        · rw [heq]
          exact .attach _ w _ _ (fun hc => hc rfl) rfl (Or.inl rfl)
    | remIntVectorServer dev w isr =>
      cases dev <;> cases isr <;> cases answer <;> first | exact absurd hans not_false | skip
      · exact hsame hans
      · exact hsame hans
      · exact hsame hans
      · have heq : S' = _ := hans
        rw [heq]
        exact .detach _ w _ fun hc => hc rfl
    | maskIntVector dev w =>
      cases dev <;> cases answer <;> first | exact absurd hans not_false | skip
      · exact hsame hans.2
      · exact hheld hans
    | unmaskIntVector dev w =>
      cases dev <;> cases answer <;> first | exact absurd hans not_false | skip
      · exact hsame hans.2
      · exact hheld hans
  | addIntServer isr dev =>
    cases isr <;> cases dev <;> cases answer <;> first | exact absurd hans not_false | skip
    · exact hsame hans.2
    · exact hsame hans.2
    · exact hsame hans.2
    · rcases hans with ⟨-, heq⟩ | ⟨-, -, messages, heq⟩
      · exact hsame heq
      · rw [heq]
        exact .attach _ 0 _ _ (fun hc => hc rfl) rfl (Or.inr ⟨messages, rfl⟩)
  | remIntServer isr dev =>
    cases isr <;> cases dev <;> cases answer <;> first | exact absurd hans not_false | skip
    · exact hsame hans
    · exact hsame hans
    · exact hsame hans
    · exact hfresh (fun hc => hc rfl) hans
  | enableMSI dev =>
    cases answer <;> first | exact absurd hans not_false | skip
    exact hsame hans.2
  | disableMSI dev =>
    cases answer <;> first | exact absurd hans not_false | skip
    exact hsame hans
  | maskMSI dev =>
    cases dev <;> cases answer <;> first | exact absurd hans not_false | skip
    · exact hsame hans.2
    · exact hheld hans
  | unmaskMSI dev =>
    cases dev <;> cases answer <;> first | exact absurd hans not_false | skip
    · exact hsame hans.2
    · exact hheld hans
  | checkSetINTxMask dev mask =>
    cases answer <;> first | exact absurd hans not_false | skip
    exact hsame hans.2

/-- **Where servers come from.** After a library call a vector has the server it had, or one that the
call adds. -/
theorem Answers.server_mem (hans : S.Answers c answer S') (h : (S' i).vecs v = some a) :
    (∃ b, (S i).vecs v = some b ∧ b.server = a.server) ∨ c.Adds a.server := by
  cases hans.change with
  | same => exact Or.inl ⟨a, h, rfl⟩
  | fresh j n messages => exact Or.inl (server_update (fun _ _ hb => by cases hb) h)
  | attach j w server d hown hadds hd =>
    rcases vecs_update h with ⟨rfl, hattach⟩ | ⟨-, hold⟩
    · rcases Client.server_of_attach hattach with hold | hnew
      · rcases hd with rfl | ⟨messages, rfl⟩
        · exact Or.inl ⟨a, hold, rfl⟩
        · cases hold
      · exact Or.inr (hnew ▸ hadds)
    · exact Or.inl ⟨a, hold, rfl⟩
  | detach j w server =>
    exact Or.inl (server_update (fun _ b hb => ⟨b, (Client.vecs_of_detach hb).1, rfl⟩) h)
  | hold j w held => exact Or.inl (server_update (fun _ _ hb => Client.exists_of_hold hb) h)

/-- A call that takes the server from the one vector that has it leaves no vector with it. -/
theorem Answers.without (hans : S.Answers c answer S') (honly : S.OnlyAt server i v)
    (hdetach : c.Detaches i v server) : S'.Without server := by
  intro i' v' a ha hserver
  have hidle (heq : S' = Function.update S i .idle) : False := by
    rw [heq] at ha
    rcases vecs_update ha with ⟨-, hidle⟩ | ⟨hne, hold⟩
    · cases hidle
    · exact hne (honly i' v' a hold hserver).1
  cases c with
  | vector c =>
    cases c with
    | freeIntVectors dev =>
      obtain rfl := hdetach
      cases answer <;> first | exact absurd hans not_false | skip
      exact hidle hans
    | remIntVectorServer dev w isr =>
      obtain ⟨rfl, rfl, rfl⟩ := hdetach
      cases answer <;> first | exact absurd hans not_false | skip
      have heq : S' = _ := hans
      rw [heq] at ha
      rcases vecs_update ha with ⟨rfl, hdetached⟩ | ⟨hne, hold⟩
      · obtain ⟨hold, hnot⟩ := Client.vecs_of_detach hdetached
        exact hnot (honly i' v' a hold hserver).2 hserver
      · exact hne (honly i' v' a hold hserver).1
    | _ => exact hdetach
  | remIntServer isr dev =>
    obtain ⟨rfl, hisr⟩ := hdetach
    obtain _ | other := isr
    · exact hisr rfl
    · cases answer <;> first | exact absurd hans not_false | skip
      exact hidle hans
  | _ => exact hdetach

/-- **One step.** A server that no vector has is not called, and none gets it but by a call that adds
it. -/
theorem Step.without {l : ServiceLabel ι} (hstep : Step S l S') (hnone : S.Without server)
    (hadds : ¬ l.Adds server) :
    S'.Without server ∧ ∀ calls, l = .interrupt calls → server ∉ calls := by
  cases l with
  | call c answer =>
    refine ⟨fun i v a ha hserver => ?_, nofun⟩
    rcases Answers.server_mem hstep ha with ⟨b, hb, hsame⟩ | hnew
    · exact hnone i v b hb (hsame.trans hserver)
    · exact hadds (hserver ▸ hnew)
  | message j w =>
    obtain ⟨-, -, rfl⟩ := hstep
    refine ⟨fun i v a ha hserver => ?_, nofun⟩
    obtain ⟨b, hb, hsame⟩ :=
      server_update (fun _ _ hb => Client.exists_of_setVec_map
        (f := fun a => { a with pending := true }) (fun _ => rfl) hb) ha
    exact hnone i v b hb (hsame.trans hserver)
  | interrupt calls =>
    obtain ⟨due, -, hdue, rfl, rfl⟩ := hstep
    refine ⟨fun i v a ha hserver => ?_, ?_⟩
    · obtain ⟨b, hb, rfl⟩ := Option.map_eq_some_iff.1 ha
      exact hnone i v b hb hserver
    · rintro _ ⟨rfl⟩ hcalled
      obtain ⟨⟨q, called⟩, hmem, hsame⟩ := List.mem_map.1 hcalled
      obtain ⟨a, ha, hserver, -⟩ := (hdue q called).1 hmem
      exact hnone q.1 q.2 a ha (hserver.trans hsame)

end Service

/-! ## In the interrupt layer -/

variable [DecidableEq ι] [Gic400 σ]

/-- **A server that was taken away is not called.** From probe, on functions that implement the registers
of their MSI message, after any run: once a call has taken a server from the only vector that has it, no
run of the demux calls it, whatever calls, messages and interrupts follow, as long as no call puts it on
a vector again. -/
theorem removed_uncalled {s t t' u : IrqState ι σ} (h : Probed s)
    (hw : ∀ i, (s.devs i).msi.capOffset ≠ 0 → MsiMsgWritable (s.devs i))
    {before after : List (ServiceLabel ι)} (hbefore : Path irqSystem s before t)
    {i : ι} {v : ℕ} {server : Interrupt} (honly : t.service.OnlyAt server i v)
    {c : LibCall ι} {answer : Answer} (hcall : irqSystem t (.call c answer) t')
    (hdetach : c.Detaches i v server) (hafter : Path irqSystem t' after u)
    (hadds : ∀ l ∈ after, ¬ l.Adds server) :
    ∀ calls, .interrupt calls ∈ after → server ∉ calls := by
  have hsim : Simulation (irqSystem (ι := ι) (σ := σ)) Service.Step
      fun s S => Routed s ∧ S = s.service :=
    Simulation.of_abstraction fun _ _ _ hs hstep => service_step hs hstep
  obtain ⟨-, -, ht, -⟩ := hsim.path hbefore ⟨h.routed hw, rfl⟩
  obtain ⟨ht', hans⟩ := service_step ht hcall
  obtain ⟨S, hspec, -⟩ := hsim.path hafter ⟨ht', rfl⟩
  have hnone : t'.service.Without server := Service.Answers.without hans honly hdetach
  exact fun calls hmem => (Path.labels (fun hstep hs hl => Service.Step.without hstep hs hl) hspec hnone
    hadds).2 _ hmem calls rfl

/-- What is seen of a vector before its server is taken away, and after: another server is put on it,
and called by the next message. -/
def givenLabels : List (ServiceLabel Bool) :=
  [.call (.vector (.allocIntVectors (some true) 4 4 pciIrqMsi)) (.code 4),
    .call (.vector (.addIntVectorServer (some true) 2 (some ⟨0x1000⟩))) (.code 0)]

@[inherit_doc givenLabels]
def reusedLabels : List (ServiceLabel Bool) :=
  [.call (.vector (.addIntVectorServer (some true) 2 (some ⟨0x2000⟩))) (.code 0), .message true 2,
    .interrupt [⟨0x2000⟩]]

/-- The state in which a server has been put on the vector. -/
def givenState : IrqState Bool GicTable :=
  libStep (libStep sampleState (.vector (.allocIntVectors (some true) 4 4 pciIrqMsi)))
    (.vector (.addIntVectorServer (some true) 2 (some ⟨0x1000⟩)))

/-- A slot given back and used again does not call the server that was removed. -/
theorem removed_uncalled_sample : ∃ t' u : IrqState Bool GicTable,
    Path irqSystem sampleState givenLabels givenState ∧
      irqSystem givenState
        (.call (.vector (.remIntVectorServer (some true) 2 (some ⟨0x1000⟩))) .done) t' ∧
      Path irqSystem t' reusedLabels u ∧
      ∀ calls, .interrupt calls ∈ reusedLabels → (⟨0x1000⟩ : Interrupt) ∉ calls := by
  have hbefore : Path irqSystem sampleState givenLabels givenState :=
    .cons ⟨by decide +kernel, rfl⟩ (.cons ⟨by decide +kernel, rfl⟩ (.nil _))
  have honly : givenState.service.OnlyAt ⟨0x1000⟩ true 2 := by
    intro i' v' a ha hserver
    have hv : v' < (givenState.allocs i').nvec := by
      by_contra hnot
      have hnone : attachmentOf givenState.pcie (givenState.allocs i') v' = none := if_neg hnot
      exact absurd (hnone.symm.trans ha) nofun
    have hmap : (attachmentOf givenState.pcie (givenState.allocs i') v').map Attachment.server
        = some ⟨0x1000⟩ := (congrArg (Option.map Attachment.server) ha).trans (congrArg some hserver)
    have hall : ∀ i', ∀ v' < (givenState.allocs i').nvec,
        (attachmentOf givenState.pcie (givenState.allocs i') v').map Attachment.server
          = some ⟨0x1000⟩ → i' = true ∧ v' = 2 := by decide +kernel
    exact hall i' v' hv hmap
  have hcall : irqSystem givenState
      (.call (.vector (.remIntVectorServer (some true) 2 (some ⟨0x1000⟩))) .done) (libStep givenState
        (.vector (.remIntVectorServer (some true) 2 (some ⟨0x1000⟩)))) := ⟨rfl, rfl⟩
  have hafter : ∃ u, Path irqSystem (libStep givenState
      (.vector (.remIntVectorServer (some true) 2 (some ⟨0x1000⟩)))) reusedLabels u :=
    ⟨_, .cons ⟨by decide +kernel, rfl⟩ (.cons ⟨by decide +kernel, by decide +kernel, rfl⟩
      (.cons ⟨by decide +kernel, by decide +kernel, rfl⟩ (.nil _)))⟩
  obtain ⟨u, hafter⟩ := hafter
  exact ⟨_, u, hbefore, hcall, hafter, removed_uncalled sampleState_probed
    (fun _ _ => sampleDevice_msiMsgWritable) hbefore honly hcall ⟨rfl, rfl, rfl⟩ hafter
    (by simp [reusedLabels, ServiceLabel.Adds, LibCall.Adds])⟩

end BcmPcie
