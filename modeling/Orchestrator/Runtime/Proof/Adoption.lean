import Orchestrator.Runtime.Docker
import Orchestrator.Runtime.Proof.Mounts

/-!
# What provisioning leaves on the daemon, and what adoption expects

`Progress` follows a provisioning: which containers and networks of the execution it has added to
those that were there, and which of them it has started. At its end these are the network, one
container for each service, the agent and, when the worker has an inference relay, the relay
(`triple_provisionInner`). Adoption expects the same without the relay.
-/

namespace Orchestrator

open Prog Provision DockerRuntime

/-- Others leave alone what carries the labels of execution `e`. -/
def Elsewhere (e : ExecutionId) (d d' : Daemon) : Prop :=
  d'.containersOf e = d.containersOf e ∧ d'.networksOf e = d.networksOf e ∧
    d'.volumesOf e = d.volumesOf e

theorem OwnershipLabels.of_toMap (l : OwnershipLabels) (image : Labels) :
    Labels.of (l.toMap ++ image) l.executionId = true := by
  simp [Labels.of, OwnershipLabels.toMap, List.lookup_cons]

namespace Adoption

variable {labels : OwnershipLabels} {e : ExecutionId} {before d d' : Daemon}
variable {created : List (String × String)} {networks started : List String}

def ref (c : Container) : String × String := (c.id, c.name)

/-- How far a provisioning has come that found `before`. -/
structure Progress (e : ExecutionId) (before : Daemon) (created : List (String × String))
    (networks started : List String) (d : Daemon) : Prop where
  containers : (d.containersOf e).map ref = (before.containersOf e).map ref ++ created
  fresh : ∀ p ∈ created, p.1 ∉ (before.containersOf e).map Container.id ∧
    p.2 ∉ (before.containersOf e).map Container.name
  ids : (created.map Prod.fst).Nodup
  names : (created.map Prod.snd).Nodup
  networks_fresh : ∀ n ∈ networks, n ∉ (before.networksOf e).map Network.name
  networks : (d.networksOf e).map Network.name = (before.networksOf e).map Network.name ++ networks
  volumes : d.volumesOf e = before.volumesOf e
  started : ∀ c ∈ d.containersOf e, c.name ∈ started → c.running = true

theorem Progress.start : Progress e before [] [] [] before where
  containers := by simp
  fresh := by simp
  ids := by simp
  names := by simp
  networks := by simp
  networks_fresh := by simp
  volumes := rfl
  started := by simp

theorem Progress.elsewhere (h : Progress e before created networks started d)
    (henv : Elsewhere e d d') : Progress e before created networks started d' where
  containers := henv.1 ▸ h.containers
  fresh := h.fresh
  ids := h.ids
  names := h.names
  networks := henv.2.1 ▸ h.networks
  networks_fresh := h.networks_fresh
  volumes := henv.2.2.trans h.volumes
  started := henv.1 ▸ h.started

theorem Progress.map_id (h : Progress e before created networks started d) :
    (d.containersOf e).map Container.id =
      (before.containersOf e).map Container.id ++ created.map Prod.fst := by
  have := congrArg (List.map Prod.fst) h.containers
  simpa [Function.comp_def, ref] using this

theorem Progress.map_name (h : Progress e before created networks started d) :
    (d.containersOf e).map Container.name =
      (before.containersOf e).map Container.name ++ created.map Prod.snd := by
  have := congrArg (List.map Prod.snd) h.containers
  simpa [Function.comp_def, ref] using this

variable {α : Type} {id name : String} {name : String} {services : List ServiceRequirement}

theorem map_containersOf_subset {f : Container → α} {a : α}
    (h : a ∉ d.containers.map f) : a ∉ (d.containersOf e).map f := by
  intro hmem
  obtain ⟨c, hc, rfl⟩ := List.mem_map.1 hmem
  exact h (List.mem_map_of_mem (List.mem_filter.1 hc).1)

theorem nodup_snoc {l : List α} {a : α} (h : l.Nodup) (ha : a ∉ l) : (l ++ [a]).Nodup := by
  refine List.nodup_append.2 ⟨h, List.nodup_singleton a, fun x hx y hy heq => ?_⟩
  obtain rfl := List.mem_singleton.1 hy
  exact ha (heq ▸ hx)

/-! ## One call -/

theorem Progress.create (h : Progress labels.executionId before created networks started d)
    (hstarted : name ∉ started)
    (hdoes : DockerCall.Does (.createContainer name labels.toMap) d (.ok id) d') :
    Progress labels.executionId before (created ++ [(id, name)]) networks started d' := by
  obtain ⟨hname, hid, image, rfl⟩ := hdoes
  have hname := map_containersOf_subset (e := labels.executionId) hname
  have hid := map_containersOf_subset (e := labels.executionId) hid
  rw [h.map_name, List.mem_append, not_or] at hname
  rw [h.map_id, List.mem_append, not_or] at hid
  have hnew : Daemon.containersOf { d with containers := d.containers ++
      [{ id, name, labels := labels.toMap ++ image, running := false }] } labels.executionId =
      d.containersOf labels.executionId ++
        [{ id, name, labels := labels.toMap ++ image, running := false }] := by
    simp [Daemon.containersOf, labels.of_toMap image]
  refine ⟨?_, ?_, ?_, ?_, h.networks_fresh, h.networks, h.volumes, ?_⟩
  · rw [hnew, List.map_append, h.containers, List.append_assoc]
    rfl
  · intro p hp
    rcases List.mem_append.1 hp with hp | hp
    · exact h.fresh p hp
    · obtain rfl := List.mem_singleton.1 hp
      exact ⟨hid.1, hname.1⟩
  · rw [List.map_append, List.map_singleton]
    exact nodup_snoc h.ids hid.2
  · rw [List.map_append, List.map_singleton]
    exact nodup_snoc h.names hname.2
  · intro c hc hin
    rw [hnew] at hc
    rcases List.mem_append.1 hc with hc | hc
    · exact h.started c hc hin
    · obtain rfl := List.mem_singleton.1 hc
      exact absurd hin hstarted

theorem Progress.network (h : Progress labels.executionId before created networks started d)
    (hdoes : DockerCall.Does (.createNetwork name labels.toMap) d (.ok ()) d') :
    Progress labels.executionId before created (networks ++ [name]) started d' := by
  obtain ⟨hname, rfl⟩ := hdoes
  have hof : Labels.of labels.toMap labels.executionId = true := by
    simpa using labels.of_toMap []
  refine ⟨h.containers, h.fresh, h.ids, h.names, fun n hn => ?_, ?_, h.volumes, h.started⟩
  · rcases List.mem_append.1 hn with hn | hn
    · exact h.networks_fresh n hn
    · obtain rfl := List.mem_singleton.1 hn
      -- what was there before is still there
      intro hbefore
      have hmem : n ∈ (d.networksOf labels.executionId).map Network.name :=
        h.networks ▸ List.mem_append_left _ hbefore
      obtain ⟨m, hm, rfl⟩ := List.mem_map.1 hmem
      exact hname (List.mem_map_of_mem (List.mem_filter.1 hm).1)
  · rw [← List.append_assoc, ← h.networks]
    simp [Daemon.networksOf, hof]

theorem containersOf_start (container : String) :
    Daemon.containersOf { d with containers := d.containers.map fun c =>
      { c with running := c.running || c.id = container || c.name = container } } e =
    (d.containersOf e).map fun c =>
      { c with running := c.running || c.id = container || c.name = container } := by
  simp [Daemon.containersOf, List.filter_map, Function.comp_def]

theorem Progress.starting (container name : String)
    (h : Progress e before created networks started d)
    (hknown : ∀ c ∈ d.containersOf e, c.name = name → c.id = container ∨ c.name = container)
    (hdoes : DockerCall.Does (.startContainer container) d (.ok ()) d') :
    Progress e before created networks (name :: started) d' := by
  obtain rfl := hdoes
  refine ⟨?_, h.fresh, h.ids, h.names, h.networks_fresh, h.networks, h.volumes, ?_⟩
  · rw [containersOf_start, ← h.containers, List.map_map]
    rfl
  · intro c hc hin
    rw [containersOf_start] at hc
    obtain ⟨c₀, hc₀, rfl⟩ := List.mem_map.1 hc
    rcases List.mem_cons.1 hin with hname | hin
    · have := hknown c₀ hc₀ hname
      simpa [or_assoc] using Or.inr this
    · simp [h.started c₀ hc₀ hin]

theorem Progress.startingAny (container : String) (h : Progress e before created networks started d)
    (hdoes : DockerCall.Does (.startContainer container) d (.ok ()) d') :
    Progress e before created networks started d' := by
  have := h.starting container container (fun _ _ h => .inr h) hdoes
  exact ⟨this.containers, this.fresh, this.ids, this.names, this.networks_fresh, this.networks,
    this.volumes, fun c hc hin => this.started c hc (List.mem_cons_of_mem _ hin)⟩

theorem Progress.removing (h : Progress e before (created ++ [(id, name)]) networks started d)
    (hdoes : DockerCall.Does (.removeContainer id) d (.ok ()) d') :
    Progress e before created networks started d' := by
  obtain rfl := hdoes
  have hids := h.ids
  rw [List.map_append, List.map_singleton] at hids
  have hnames := h.names
  rw [List.map_append, List.map_singleton] at hnames
  have hgone : Daemon.containersOf { d with containers := d.containers.filter (·.id ≠ id) } e =
      (d.containersOf e).filter (·.id ≠ id) := by
    simp [Daemon.containersOf, List.filter_filter, Bool.and_comm]
  have hcomm : ((d.containersOf e).filter (·.id ≠ id)).map ref =
      ((d.containersOf e).map ref).filter (·.1 ≠ id) := by
    rw [List.filter_map]
    rfl
  refine ⟨?_, fun p hp => h.fresh p (List.mem_append_left _ hp), ?_, ?_, h.networks_fresh,
    h.networks, h.volumes, ?_⟩
  · rw [hgone, hcomm, h.containers, List.filter_append, List.filter_append]
    have hkeep₁ : ((before.containersOf e).map ref).filter (·.1 ≠ id) =
        (before.containersOf e).map ref := by
      refine List.filter_eq_self.2 fun p hp => ?_
      obtain ⟨c, hc, rfl⟩ := List.mem_map.1 hp
      have hfresh := (h.fresh (id, name) (by simp)).1
      exact decide_eq_true fun heq : c.id = id => hfresh (heq ▸ List.mem_map_of_mem hc)
    have hkeep₂ : created.filter (·.1 ≠ id) = created := by
      refine List.filter_eq_self.2 fun p hp => ?_
      have := (List.nodup_append.1 hids).2.2 p.1 (List.mem_map_of_mem hp) id (by simp)
      simpa using this
    rw [hkeep₁, hkeep₂]
    simp
  · exact (List.nodup_append.1 hids).1
  · exact (List.nodup_append.1 hnames).1
  · intro c hc hin
    rw [hgone] at hc
    exact h.started c (List.mem_filter.1 hc).1 hin

/-! ## The program -/

def setting (e : ExecutionId) : Setting DockerCall Daemon where
  sem := DockerCall.Does
  env := Elsewhere e
  safe _ := True

def anything : Assertion (setting e) where
  holds _ := True
  stable _ _ := trivial
  within _ := trivial

/-- `Progress`, as an assertion. -/
def at_ (e : ExecutionId) (before : Daemon) (created : List (String × String))
    (networks started : List String) : Assertion (setting e) where
  holds := Progress e before created networks started
  stable henv h := h.elsewhere henv
  within _ := trivial

variable {P : Assertion (setting e)} {requirement : RuntimeRequirement} {layout : ExecutionLayout}

theorem triple_verify : TripleE P (attempt .verify) (fun _ => P) anything :=
  .attempt (fun _ _ _ h hdoes => (show _ = _ from hdoes) ▸ h) fun _ _ _ _ _ => trivial

theorem triple_ensureImage {image : String} :
    TripleE P (attempt (.ensureImage image)) (fun _ => P) anything :=
  .attempt (fun _ _ _ h hdoes => (show _ = _ from hdoes) ▸ h) fun _ _ _ _ _ => trivial

theorem triple_create (hstarted : name ∉ started) :
    TripleE (at_ labels.executionId before created networks started)
      (attempt (.createContainer name labels.toMap))
      (fun id => at_ labels.executionId before (created ++ [(id, name)]) networks started)
      anything :=
  .attempt (fun _ _ _ h hdoes => h.create hstarted hdoes) fun _ _ _ _ _ => trivial

def after (e : ExecutionId) (before : Daemon) (created : List (String × String))
    (names networks started : List String) : Assertion (setting e) :=
  Assertion.some fun more : { l : List (String × String) // l.map Prod.snd = names } =>
    at_ e before (created ++ more.1) networks started

theorem triple_createServices : TripleE (at_ labels.executionId before created networks [])
      (createServices labels services)
      (fun names => (after labels.executionId before created
        (services.map fun s => serviceContainerName labels.executionId s.name) networks []).and
          (names = services.map fun s => serviceContainerName labels.executionId s.name))
      anything := by
  induction services generalizing created with
  | nil => exact .pure fun _ h => ⟨⟨⟨[], rfl⟩, by simpa using h⟩, rfl⟩
  | cons service services ih =>
    refine .bind triple_verify fun _ => ?_
    refine .bind (triple_create (by simp)) fun id => ?_
    refine .bind triple_verify fun _ => ?_
    refine .bind triple_verify fun _ => ?_
    refine .bind ih fun names => ?_
    refine .pure fun d h => ?_
    obtain ⟨⟨⟨more, hmore⟩, h⟩, rfl⟩ := h
    refine ⟨⟨⟨(id, serviceContainerName labels.executionId service.name) :: more,
      by rw [List.map_cons, hmore]; rfl⟩, ?_⟩, rfl⟩
    simpa [at_, List.append_assoc] using h

theorem triple_anything {p : DockerM α} :
    TripleE (anything : Assertion (setting e)) p (fun _ => anything) anything :=
  .of_only Only.true fun _ _ _ _ _ _ _ => trivial

def relayName (runtime : DockerRuntime) (e : ExecutionId) : Option String :=
  runtime.inferenceRelay.map fun _ => relayContainerName e

theorem triple_createRelayIfConfigured {runtime : DockerRuntime} :
    TripleE (at_ labels.executionId before created networks [])
      (createRelayIfConfigured runtime labels)
      (fun relay => (after labels.executionId before created
        (relayName runtime labels.executionId).toList networks []).and
          (relay = relayName runtime labels.executionId)) anything := by
  unfold createRelayIfConfigured relayName
  split
  · next hrelay =>
    rw [hrelay]
    exact .pure fun _ h => ⟨⟨⟨[], rfl⟩, by simpa using h⟩, rfl⟩
  · next relay hrelay =>
    rw [hrelay]
    refine .bind (Q := fun name => (after labels.executionId before created
      [relayContainerName labels.executionId] networks []).and
        (name = relayContainerName labels.executionId)) ?_ fun name => ?_
    · refine .bind (triple_create (by simp)) fun id => ?_
      refine .bind (Q := fun _ => at_ labels.executionId before
        (created ++ [(id, relayContainerName labels.executionId)]) networks []) ?_ fun _ => ?_
      · exact .attempt (fun _ _ _ h hdoes => (show _ = _ from hdoes) ▸ h)
          fun _ _ _ _ _ => trivial
      · exact .pure fun _ h =>
          ⟨⟨⟨[(id, relayContainerName labels.executionId)], rfl⟩, h⟩, rfl⟩
    · exact .pure fun _ h => ⟨h.1, congrArg some h.2⟩

theorem triple_startAny {container : String} :
    TripleE (at_ e before created networks started) (attempt (.startContainer container))
      (fun _ => at_ e before created networks started) anything :=
  .attempt (fun _ () _ h hdoes => h.startingAny container hdoes) fun _ _ _ _ _ => trivial

theorem triple_startName :
    TripleE (at_ e before created networks started) (attempt (.startContainer name))
      (fun _ => at_ e before created networks (name :: started)) anything :=
  .attempt (fun _ () _ h hdoes => h.starting name name (fun _ _ hname => .inr hname) hdoes)
    fun _ _ _ _ _ => trivial

theorem triple_verifyWithTrustedContainer :
    TripleE (at_ labels.executionId before created networks [])
      (verifyWithTrustedContainer labels)
      (fun _ => at_ labels.executionId before created networks []) anything := by
  refine .bind triple_verify fun _ => ?_
  refine .bind (triple_create (by simp)) fun id => ?_
  have hrun : TripleE (at_ labels.executionId before
      (created ++ [(id, s!"autospec-{labels.executionId}-mount-verifier")]) networks [])
      (runTrustedVerifier id) (fun _ => at_ labels.executionId before
        (created ++ [(id, s!"autospec-{labels.executionId}-mount-verifier")]) networks [])
      anything := by
    refine .bind triple_verify fun _ => ?_
    refine .bind triple_verify fun _ => ?_
    exact .bind triple_startAny fun _ => triple_verify
  have hremove : TripleE (at_ labels.executionId before
      (created ++ [(id, s!"autospec-{labels.executionId}-mount-verifier")]) networks [])
      (do
        attempt .verify
        attempt (.removeContainer id) : DockerM Unit)
      (fun _ => at_ labels.executionId before created networks []) anything :=
    .bind triple_verify fun _ =>
      .attempt (fun _ () _ h hdoes => h.removing hdoes) fun _ _ _ _ _ => trivial
  -- a failure of one of the three parts is reported at the end
  refine .bind (.observe hrun) fun verification => ?_
  cases verification with
  | error error =>
    refine .bind (.observe triple_anything) fun ready => ?_
    refine .bind (Q := fun _ => anything) ?_ fun removal => .throw fun _ _ => trivial
    exact fun _ _ => triple_anything _ trivial
  | ok u =>
    refine .bind (.observe triple_verify) fun ready => ?_
    cases ready with
    | error error =>
      refine .bind (Q := fun _ => anything) ?_ fun removal =>
        .throw fun _ _ => trivial
      exact fun _ _ => triple_anything _ trivial
    | ok u =>
      refine .bind (.observe hremove) fun removal => ?_
      cases removal with
      | error error => exact .throw fun _ _ => trivial
      | ok u => exact .pure fun _ h => h

theorem triple_startServices {names : List String} :
    TripleE (at_ e before created networks started) (startServices names)
      (fun _ => at_ e before created networks (names.reverse ++ started)) anything := by
  induction names generalizing started with
  | nil => exact .pure fun _ h => h
  | cons name names ih =>
    rw [List.reverse_cons, List.append_assoc]
    exact .bind (.bind triple_verify fun _ => triple_startName) fun _ => ih

theorem Progress.id_of_name {c : Container}
    (h : Progress e before created networks started d) (hcreated : (id, name) ∈ created)
    (hc : c ∈ d.containersOf e) (hname : c.name = name) : c.id = id := by
  have hmem : ref c ∈ (before.containersOf e).map ref ++ created :=
    h.containers ▸ List.mem_map_of_mem hc
  rcases List.mem_append.1 hmem with hbefore | hmine
  · obtain ⟨c', hc', href⟩ := List.mem_map.1 hbefore
    have hname' : c'.name = name := (congrArg Prod.snd href).trans hname
    exact absurd (hname' ▸ List.mem_map_of_mem hc') (h.fresh (id, name) hcreated).2
  · exact congrArg Prod.fst (List.inj_on_of_nodup_map h.names hmine hcreated hname)

theorem triple_startAll {runtime : DockerRuntime} {services : List String} {relay : Option String}
    {agentId : String} (agentName : String) (hagent : (agentId, agentName) ∈ created) :
    TripleE (at_ e before created networks []) (startAll runtime services relay agentId)
      (fun _ => at_ e before created networks
        (agentName :: (relay.toList ++ services.reverse))) anything := by
  refine .bind triple_startServices fun _ => ?_
  refine .bind (Q := fun _ => at_ e before created networks
    (relay.toList ++ services.reverse)) ?_ fun _ => ?_
  · refine .whenSome (fun name hname => ?_) fun hnone d h => ?_
    · subst hname
      simpa using triple_startName
    · subst hnone
      simpa using h
  · refine .bind triple_verify fun _ => ?_
    refine .bind (Q := fun _ => at_ e before created networks
      (agentName :: (relay.toList ++ services.reverse))) ?_ fun _ => ?_
    · refine .attempt (fun d () d' h hdoes => ?_) fun _ _ _ _ _ => trivial
      exact h.starting agentId agentName
        (fun c hc hname => .inl (h.id_of_name hagent hc hname)) hdoes
    · refine .bind (Q := fun _ => at_ e before created networks
        (agentName :: (relay.toList ++ services.reverse))) ?_ fun _ => triple_verify
      exact .provided (fun _ => triple_verify) fun _ _ h => h

def createdNames (runtime : DockerRuntime) (e : ExecutionId)
    (services : List ServiceRequirement) : List String :=
  (services.map fun s => serviceContainerName e s.name) ++ (relayName runtime e).toList ++
    [agentContainerName e]

theorem triple_provisionInner {runtime : DockerRuntime} :
    TripleE (at_ labels.executionId before [] [] [])
      (provisionInner runtime labels requirement services layout)
      (fun _ => after labels.executionId before []
        (createdNames runtime labels.executionId services) [networkName labels.executionId]
        (createdNames runtime labels.executionId services)) anything := by
  refine .learn (.demand fun _ _ => trivial) fun image _ => ?_
  refine .bind triple_ensureImage fun imageInspect => ?_
  refine .bind (Q := fun _ => at_ labels.executionId before [] [] []) ?_ fun images => ?_
  · exact .collect _ (I := fun _ => at_ labels.executionId before [] [] []) fun service _ =>
      .bind triple_ensureImage fun _ => .pure fun _ h => h
  refine .bind (Q := fun _ => at_ labels.executionId before [] [] []) ?_ fun _ => ?_
  · refine .whenSome (fun relay _ => ?_) fun _ _ h => h
    exact .bind triple_ensureImage fun _ => .guard (fun _ h _ => h) fun _ _ _ => trivial
  refine .bind (.unwrap (fun _ _ h _ => h) fun _ _ => trivial) fun _ => ?_
  refine .bind (Q := fun _ => at_ labels.executionId before [] [] [])
    (.unwrap (fun _ _ h _ => h) fun _ _ => trivial) fun mounts => ?_
  refine .bind triple_verify fun _ => ?_
  refine .bind (Q := fun _ => at_ labels.executionId before []
    [networkName labels.executionId] []) ?_ fun _ => ?_
  · exact .attempt (fun _ () _ h hdoes => h.network hdoes) fun _ _ _ _ _ => trivial
  refine .learn triple_createServices fun names hnames => ?_
  refine .of_some fun more => ?_
  refine .learn triple_createRelayIfConfigured fun relay hrelay => ?_
  refine .of_some fun more' => ?_
  refine .bind triple_verify fun _ => ?_
  refine .bind (triple_create (by simp)) fun agentId => ?_
  refine .bind triple_verify fun _ => ?_
  refine .bind triple_verify fun _ => ?_
  refine .bind triple_verifyWithTrustedContainer fun _ => ?_
  refine .bind (triple_startAll (agentContainerName labels.executionId) (by simp)) fun _ => ?_
  refine .pure fun d h => ?_
  obtain ⟨more, hmore⟩ := more
  obtain ⟨more', hmore'⟩ := more'
  subst hnames hrelay
  refine ⟨⟨more ++ more' ++ [(agentId, agentContainerName labels.executionId)], ?_⟩, ?_⟩
  · rw [List.map_append, List.map_append, hmore, hmore']
    rfl
  · have hstarted : ∀ n ∈ createdNames runtime labels.executionId services,
        n ∈ agentContainerName labels.executionId ::
          ((relayName runtime labels.executionId).toList ++
            (services.map fun s => serviceContainerName labels.executionId s.name).reverse) := by
      intro n hn
      simp only [createdNames, List.mem_append, List.mem_singleton] at hn
      simp only [List.mem_cons, List.mem_append, List.mem_reverse]
      tauto
    exact ⟨h.containers, h.fresh, h.ids, h.names, h.networks_fresh, h.networks, h.volumes,
      fun c hc hn => h.started c hc (hstarted c.name hn)⟩

theorem triple_provision (labels : OwnershipLabels) {runtime : DockerRuntime} :
    TripleE (at_ labels.executionId before [] [] [])
      (provision runtime labels requirement services layout)
      (fun _ => after labels.executionId before []
        (createdNames runtime labels.executionId services) [networkName labels.executionId]
        (createdNames runtime labels.executionId services)) anything := by
  refine .bind triple_verify fun _ => ?_
  refine .bind (.observe triple_provisionInner) fun provisioned => ?_
  cases provisioned with
  | ok handle => exact .pure fun _ h => h
  | error error =>
    refine .bind (Q := fun _ => anything) (fun _ _ => triple_anything _ trivial)
      fun rollback => ?_
    cases rollback with
    | ok u => exact .throw fun _ _ => trivial
    | error _ => exact .throw fun _ _ => trivial

/-! ## Adoption -/

section Sets
variable {runtime : DockerRuntime} {services : List ServiceRequirement}
  (h : Progress e before created [networkName e] (createdNames runtime e services) d)
  (hcreated : created.map Prod.snd = createdNames runtime e services)
include h hcreated

theorem checkContainerSet_iff : checkContainerSet d e services = .ok () ↔
      runtime.inferenceRelay = none ∧ before.containersOf e = [] := by
  have hnames := h.map_name
  rw [hcreated] at hnames
  have hnodup := hcreated ▸ h.names
  simp only [checkContainerSet, Txn.ensure_eq_ok]
  constructor
  · rintro ⟨hall, -⟩
    rw [hnames] at hall
    have hexpected : ∀ n, n ∈ (before.containersOf e).map Container.name ++
        createdNames runtime e services → n = agentContainerName e ∨
          n ∈ services.map fun s => serviceContainerName e s.name := by
      intro n hn
      have : n ∈ expectedContainers e services := hall ▸ List.mem_toFinset.2 hn
      simpa [expectedContainers] using this
    constructor
    · -- the relay would be one of the others
      by_contra hrelay
      obtain ⟨relay, hrelay⟩ := Option.ne_none_iff_exists'.1 hrelay
      have hname : relayName runtime e = some (relayContainerName e) := by
        rw [relayName, hrelay]
        rfl
      have hdisjoint := List.nodup_append.1 hnodup
      rw [hname] at hdisjoint
      have hservices := (List.nodup_append.1 hdisjoint.1).2.2
      rcases hexpected (relayContainerName e) (by simp [createdNames, hname]) with hagent | hservice
      · exact hdisjoint.2.2 (relayContainerName e) (by simp) _ (by simp) hagent
      · exact hservices _ hservice _ (by simp) rfl
    · by_contra hbefore
      obtain ⟨c, hc⟩ := List.exists_mem_of_ne_nil _ hbefore
      have hmem : c.name ∈ (before.containersOf e).map Container.name := List.mem_map_of_mem hc
      have hmine : c.name ∈ created.map Prod.snd := by
        rw [hcreated]
        rcases hexpected c.name (List.mem_append_left _ hmem) with hagent | hservice
        · simp [createdNames, hagent]
        · simp only [createdNames, List.mem_append]
          exact .inl (.inl hservice)
      obtain ⟨p, hp, hname⟩ := List.mem_map.1 hmine
      exact (h.fresh p hp).2 (hname ▸ hmem)
  · rintro ⟨hrelay, hbefore⟩
    have hall : (d.containersOf e).map Container.name = createdNames runtime e services := by
      rw [hnames, hbefore]
      rfl
    have hrunning : (d.containersOf e).filter (·.running) = d.containersOf e := by
      refine List.filter_eq_self.2 fun c hc => h.started c hc ?_
      exact hall ▸ List.mem_map_of_mem hc
    have hset : (createdNames runtime e services).toFinset = expectedContainers e services := by
      ext n
      simp [createdNames, expectedContainers, relayName, hrelay, or_comm]
    rw [hrunning, hall]
    exact ⟨hset, hset⟩

omit hcreated in
theorem checkNetworkSet_iff : checkNetworkSet d e = .ok () ↔ before.networksOf e = [] := by
  simp only [checkNetworkSet, Txn.ensure_eq_ok, h.networks]
  constructor
  · intro hset
    by_contra hbefore
    obtain ⟨n, hn⟩ := List.exists_mem_of_ne_nil _ hbefore
    have hmem : n.name ∈ (before.networksOf e).map Network.name := List.mem_map_of_mem hn
    have hname : n.name = networkName e := by
      have : n.name ∈ ({networkName e} : Finset String) :=
        hset ▸ List.mem_toFinset.2 (List.mem_append_left _ hmem)
      simpa using this
    exact h.networks_fresh (networkName e) (by simp) (hname ▸ hmem)
  · intro hbefore
    simp [hbefore]

omit hcreated in
theorem checkVolumeSet_iff : checkVolumeSet d e = .ok () ↔ before.volumesOf e = [] := by
  simp [checkVolumeSet, h.volumes]

end Sets

/-- After a provisioning that succeeded, with whatever others do to other executions meanwhile, the
inventory of adoption passes if and only if the worker has no inference relay, and nothing of the
execution was on the daemon before. -/
theorem adoption_accepts_provision {runtime : DockerRuntime} {requirement : RuntimeRequirement}
    {services : List ServiceRequirement} {layout : ExecutionLayout} {handle : Provision.EnvironmentHandle}
    (h : Runs DockerCall.Does (Elsewhere labels.executionId)
      (provision runtime labels requirement services layout).run d (.ok handle) d') :
    (checkContainerSet d' labels.executionId services = .ok () ∧
      checkNetworkSet d' labels.executionId = .ok () ∧
      checkVolumeSet d' labels.executionId = .ok ()) ↔
    runtime.inferenceRelay = none ∧ d.containersOf labels.executionId = [] ∧
      d.networksOf labels.executionId = [] ∧ d.volumesOf labels.executionId = [] := by
  obtain ⟨⟨created, hcreated⟩, hprogress⟩ :=
    (triple_provision labels d Progress.start).of_runs h
  rw [checkContainerSet_iff hprogress hcreated, checkNetworkSet_iff hprogress,
    checkVolumeSet_iff hprogress, and_assoc]

/-! ## A daemon that does what it is asked -/

namespace Sample

def exec : {β : Type} → DockerCall β → Daemon → β × Daemon
  | _, .ensureImage _, d => (.ok {}, d)
  | _, .verify, d | _, .connectNetwork _ _, d => (.ok (), d)
  | _, .createNetwork name labels, d =>
    if name ∈ d.networks.map Network.name then (.error (.provisioning "name in use"), d)
    else (.ok (), { d with networks := d.networks ++ [{ name, labels }] })
  | _, .createContainer name labels, d =>
    if name ∈ d.containers.map Container.name ∨ name ∈ d.containers.map Container.id then
      (.error (.provisioning "name in use"), d)
    else (.ok name, { d with containers :=
      d.containers ++ [{ id := name, name, labels := labels ++ [], running := false }] })
  | _, .startContainer container, d => (.ok (), { d with containers := d.containers.map fun c =>
      { c with running := c.running || c.id = container || c.name = container } })
  | _, .removeContainer id, d =>
    (.ok (), { d with containers := d.containers.filter (·.id ≠ id) })
  | _, .destroy _, d => (.ok (), d)

theorem does_exec {β : Type} (c : DockerCall β) (d : Daemon) :
    DockerCall.Does c d (exec c d).1 (exec c d).2 := by
  cases c with
  | createNetwork name labels =>
    simp only [exec]
    split
    · trivial
    · next hname => exact ⟨hname, rfl⟩
  | createContainer name labels =>
    simp only [exec]
    split
    · trivial
    · next hname => exact ⟨fun h => hname (.inl h), fun h => hname (.inr h), [], rfl⟩
  | ensureImage image => rfl
  | verify => rfl
  | connectNetwork network container => rfl
  | startContainer container => rfl
  | removeContainer id => rfl
  | destroy labels => trivial

def jobLabels : OwnershipLabels where
  executionId := ⟨"e1"⟩
  workerId := ⟨"w1"⟩
  repository := "acme/site"

def runtime (inferenceRelay : Option InferenceRelay) : DockerRuntime where
  inferenceRelay
  host := Provision.Sample.willing
  buildCacheKey := "key"

def relay : InferenceRelay := ⟨"relay:1", "gateway.local:8080", 8080⟩

def provisioned (inferenceRelay : Option InferenceRelay) : DockerM Provision.EnvironmentHandle :=
  provision (runtime inferenceRelay) jobLabels { image := some "rust:1" }
    [{ name := "db", image := "postgres:16" }] Provision.Sample.layout

end Sample

theorem adoption_accepts_provision_sample : ∃ handle d',
    Runs DockerCall.Does (Elsewhere Sample.jobLabels.executionId) (Sample.provisioned none).run {}
      (.ok handle) d' ∧
    checkContainerSet d' Sample.jobLabels.executionId [{ name := "db", image := "postgres:16" }] =
      .ok () := by
  have hruns := eval_runs (Elsewhere Sample.jobLabels.executionId) Sample.does_exec
    (Sample.provisioned none).run {}
  obtain ⟨handle, hhandle⟩ : ∃ handle,
      (eval Sample.exec (Sample.provisioned none).run {}).1 = .ok handle := ⟨_, rfl⟩
  rw [hhandle] at hruns
  exact ⟨handle, _, hruns, ((adoption_accepts_provision hruns).2 (by decide)).1⟩

/-- With an inference relay configured, what provisioning has created is not accepted. -/
theorem relay_container_rejected : ∃ handle d',
    Runs DockerCall.Does (Elsewhere Sample.jobLabels.executionId)
      (Sample.provisioned (some Sample.relay)).run {} (.ok handle) d' ∧
    checkContainerSet d' Sample.jobLabels.executionId [{ name := "db", image := "postgres:16" }] =
      .error "durable runtime container set is incomplete, stopped, or contains extras" := by
  have hruns := eval_runs (Elsewhere Sample.jobLabels.executionId) Sample.does_exec
    (Sample.provisioned (some Sample.relay)).run {}
  obtain ⟨handle, hhandle⟩ : ∃ handle,
      (eval Sample.exec (Sample.provisioned (some Sample.relay)).run {}).1 = .ok handle := ⟨_, rfl⟩
  rw [hhandle] at hruns
  exact ⟨handle, _, hruns, by decide +kernel⟩

end Adoption

end Orchestrator
