import HyperswarmRs.Config

namespace HyperswarmRs
set_option autoImplicit true

/-- What each step writes or keeps is what the last step that writes it has written. -/
theorem foldl_last_write {step : σ → ι → σ} (get : σ → Option β) (write : ι → Option β)
    (h : ∀ s i, get (step s i) = (write i).or (get s)) (is : List ι) (s : σ) :
    get (is.foldl step s) = (is.filterMap write).getLast?.or (get s) := by
  induction is generalizing s with
  | nil => rfl
  | cons i is ih =>
    rw [List.foldl_cons, ih, h]
    cases hw : write i with
    | none => rw [List.filterMap_cons_none hw, Option.none_or]
    | some b =>
      rw [List.filterMap_cons_some hw, List.getLast?_cons]
      cases (is.filterMap write).getLast? <;> rfl

/-- Each of the two setters changes a field of its own, and nothing else. -/
structure DhtConfig.OwnFields [DhtConfig C A] (nodes : C → N) (ephemeral : C → Bool) (rest : C → R)
    (resolve : A → N) : Prop where
  nodes_bootstrap : ∀ c a, nodes (setBootstrapNodes c a) = resolve a
  ephemeral_bootstrap : ∀ c (a : A), ephemeral (setBootstrapNodes c a) = ephemeral c
  rest_bootstrap : ∀ c (a : A), rest (setBootstrapNodes c a) = rest c
  nodes_ephemeral : ∀ c b, nodes (setEphemeral c b) = nodes c
  ephemeral_ephemeral : ∀ c b, ephemeral (setEphemeral c b) = b
  rest_ephemeral : ∀ c b, rest (setEphemeral c b) = rest c
  ext : ∀ {c c'}, nodes c = nodes c' → ephemeral c = ephemeral c' → rest c = rest c' → c = c'

inductive Setter (C A : Type) where
  | setDht (config : C)
  | setMdns (config : MdnsConfig)
  | setLocalAddr (address : SocketAddr)
  | setBootstrapNodes (addresses : A)
  | setEphemeral (ephemeral : Bool)

inductive ConfigField where
  | mdns
  | localAddr
  | bootstrapNodes
  | ephemeral
  | restOfDht

namespace Setter

def Writes : Setter C A → ConfigField → Prop
  | .setDht _, f => f = .bootstrapNodes ∨ f = .ephemeral ∨ f = .restOfDht
  | .setMdns _, f => f = .mdns
  | .setLocalAddr _, f => f = .localAddr
  | .setBootstrapNodes _, f => f = .bootstrapNodes
  | .setEphemeral _, f => f = .ephemeral

def SetsDht : Setter C A → Prop
  | .setDht _ | .setBootstrapNodes _ | .setEphemeral _ => True
  | .setMdns _ | .setLocalAddr _ => False

def mdns? : Setter C A → Option MdnsConfig
  | .setMdns config => some config
  | _ => none

def localAddr? : Setter C A → Option SocketAddr
  | .setLocalAddr address => some address
  | _ => none

def nodes? (nodes : C → N) (resolve : A → N) : Setter C A → Option N
  | .setDht config => some (nodes config)
  | .setBootstrapNodes addresses => some (resolve addresses)
  | _ => none

def ephemeral? (get : C → Bool) : Setter C A → Option Bool
  | .setDht config => some (get config)
  | .setEphemeral ephemeral => some ephemeral
  | _ => none

def rest? (rest : C → R) : Setter C A → Option R
  | .setDht config => some (rest config)
  | _ => none

end Setter

namespace Config

variable [DhtConfig C A]

def apply (self : Config C) : Setter C A → Config C
  | .setDht config => self.setDht config
  | .setMdns config => self.setMdns config
  | .setLocalAddr address => self.setLocalAddr address
  | .setBootstrapNodes addresses => self.setBootstrapNodes addresses
  | .setEphemeral ephemeral => self.setEphemeral ephemeral

def build (chain : List (Setter C A)) : Config C := chain.foldl apply new

theorem apply_comm {nodes : C → N} {ephemeral : C → Bool} {rest : C → R} {resolve : A → N}
    (h : DhtConfig.OwnFields nodes ephemeral rest resolve) (c : Config C) (s t : Setter C A)
    (hd : ∀ f, ¬ (s.Writes f ∧ t.Writes f)) : (c.apply s).apply t = (c.apply t).apply s := by
  have hc : ∀ (d : C) (a : A) b, DhtConfig.setEphemeral (DhtConfig.setBootstrapNodes d a) b =
      DhtConfig.setBootstrapNodes (DhtConfig.setEphemeral d b) a := by
    intro d a b
    apply h.ext
    · rw [h.nodes_ephemeral, h.nodes_bootstrap, h.nodes_bootstrap]
    · rw [h.ephemeral_ephemeral, h.ephemeral_bootstrap, h.ephemeral_ephemeral]
    · rw [h.rest_ephemeral, h.rest_bootstrap, h.rest_bootstrap, h.rest_ephemeral]
  cases s <;> cases t
  case setMdns.setMdns => exact (hd .mdns ⟨rfl, rfl⟩).elim
  case setLocalAddr.setLocalAddr => exact (hd .localAddr ⟨rfl, rfl⟩).elim
  case setDht.setDht => exact (hd .bootstrapNodes ⟨.inl rfl, .inl rfl⟩).elim
  case setDht.setBootstrapNodes => exact (hd .bootstrapNodes ⟨.inl rfl, rfl⟩).elim
  case setBootstrapNodes.setDht => exact (hd .bootstrapNodes ⟨rfl, .inl rfl⟩).elim
  case setBootstrapNodes.setBootstrapNodes => exact (hd .bootstrapNodes ⟨rfl, rfl⟩).elim
  case setDht.setEphemeral => exact (hd .ephemeral ⟨.inr (.inl rfl), rfl⟩).elim
  case setEphemeral.setDht => exact (hd .ephemeral ⟨rfl, .inr (.inl rfl)⟩).elim
  case setEphemeral.setEphemeral => exact (hd .ephemeral ⟨rfl, rfl⟩).elim
  case setBootstrapNodes.setEphemeral a b =>
    exact congrArg (fun d => { c with dht := some d }) (hc _ a b)
  case setEphemeral.setBootstrapNodes b a =>
    exact congrArg (fun d => { c with dht := some d }) (hc _ a b).symm
  all_goals rfl

theorem apply_localAddr (c : Config C) (s : Setter C A) (h : ¬ s.Writes .localAddr) :
    (c.apply s).localAddr = c.localAddr := by
  cases s with
  | setLocalAddr address => exact (h rfl).elim
  | _ => rfl

/-- Each section and each field of the DHT section has the value of the last setter that writes it;
a section that only the shortcuts write has its default in the other fields. -/
structure LastWriters (nodes : C → N) (ephemeral : C → Bool) (rest : C → R) (resolve : A → N)
    (chain : List (Setter C A)) (c : Config C) : Prop where
  mdns : c.mdns = (chain.filterMap Setter.mdns?).getLast?
  localAddr : c.localAddr = (chain.filterMap Setter.localAddr?).getLast?
  dht : c.dht.isSome = true ↔ ∃ s ∈ chain, s.SetsDht
  nodes : ∀ d, c.dht = some d → some (nodes d) =
    (chain.filterMap (Setter.nodes? nodes resolve)).getLast?.or (some (nodes default))
  ephemeral : ∀ d, c.dht = some d → some (ephemeral d) =
    (chain.filterMap (Setter.ephemeral? ephemeral)).getLast?.or (some (ephemeral default))
  rest : ∀ d, c.dht = some d → some (rest d) =
    (chain.filterMap (Setter.rest? rest)).getLast?.or (some (rest default))

theorem build_dht (chain : List (Setter C A)) (c : Config C) :
    (chain.foldl apply c).dht.isSome = true ↔ (∃ s ∈ chain, s.SetsDht) ∨ c.dht.isSome = true := by
  induction chain generalizing c with
  | nil => simp only [List.foldl_nil, List.not_mem_nil, false_and, exists_false, false_or]
  | cons s chain ih =>
    have hs : (c.apply s).dht.isSome = true ↔ s.SetsDht ∨ c.dht.isSome = true := by
      cases s with
      | setMdns config => exact (or_iff_right id).symm
      | setLocalAddr address => exact (or_iff_right id).symm
      | _ => exact ⟨fun _ => .inl trivial, fun _ => rfl⟩
    rw [List.foldl_cons, ih, hs, List.exists_mem_cons_iff, ← or_assoc, or_comm (b := s.SetsDht)]

theorem build_field {get : C → β} {write : Setter C A → Option β}
    (h : ∀ (c : Config C) s, some (get ((c.apply s).dht.getD default)) =
      (write s).or (some (get (c.dht.getD default)))) (chain : List (Setter C A)) (d : C)
    (hd : (build chain).dht = some d) :
    some (get d) = (chain.filterMap write).getLast?.or (some (get default)) := by
  have hf := foldl_last_write (fun c : Config C => some (get (c.dht.getD default))) write h chain new
  rwa [show (chain.foldl apply new).dht = some d from hd] at hf

theorem build_lastWriters {nodes : C → N} {ephemeral : C → Bool} {rest : C → R} {resolve : A → N}
    (h : DhtConfig.OwnFields nodes ephemeral rest resolve) (chain : List (Setter C A)) :
    LastWriters nodes ephemeral rest resolve chain (build chain) := by
  refine ⟨?_, ?_, ?_, build_field ?_ chain, build_field ?_ chain, build_field ?_ chain⟩
  · refine (foldl_last_write Config.mdns Setter.mdns? (fun c s => ?_) chain new).trans Option.or_none
    cases s <;> rfl
  · refine (foldl_last_write Config.localAddr Setter.localAddr? (fun c s => ?_) chain new).trans
      Option.or_none
    cases s <;> rfl
  · rw [build, build_dht]
    exact or_iff_left Bool.false_ne_true
  · intro c s
    cases s with
    | setBootstrapNodes a => exact congrArg some (h.nodes_bootstrap _ a)
    | setEphemeral b => exact congrArg some (h.nodes_ephemeral _ b)
    | _ => rfl
  · intro c s
    cases s with
    | setBootstrapNodes a => exact congrArg some (h.ephemeral_bootstrap _ a)
    | setEphemeral b => exact congrArg some (h.ephemeral_ephemeral _ b)
    | _ => rfl
  · intro c s
    cases s with
    | setBootstrapNodes a => exact congrArg some (h.rest_bootstrap _ a)
    | setEphemeral b => exact congrArg some (h.rest_ephemeral _ b)
    | _ => rfl

/-- Both sections are present, with what they were set to or their default. -/
structure Filled (c c' : Config C) : Prop where
  mdns : c'.mdns = some (c.mdns.getD default)
  dht : c'.dht = some (c.dht.getD default)
  localAddr : c'.localAddr = c.localAddr

omit [DhtConfig C A] in
theorem withDefaults_eq (c : Config C) : c.withDefaults = c := by
  obtain ⟨mdns, dht, localAddr⟩ := c
  cases mdns <;> cases dht <;> rfl

theorem filled_iff (c : Config C) :
    Filled c c.withDefaults ↔ c.mdns.isSome = true ∧ c.dht.isSome = true := by
  rw [withDefaults_eq]
  constructor
  · intro h
    rw [h.mdns, h.dht]
    exact ⟨rfl, rfl⟩
  · rintro ⟨hm, hd⟩
    obtain ⟨m, hm⟩ := Option.isSome_iff_exists.1 hm
    obtain ⟨d, hd⟩ := Option.isSome_iff_exists.1 hd
    refine ⟨?_, ?_, rfl⟩
    · rw [hm, Option.getD_some]
    · rw [hd, Option.getD_some]

/-- The last setter of a field wins, and setters of different fields commute. Defaults are filled in
only where no section is unset, as `with_defaults` changes nothing. -/
theorem build_filled_iff {nodes : C → N} {ephemeral : C → Bool} {rest : C → R} {resolve : A → N}
    (h : DhtConfig.OwnFields nodes ephemeral rest resolve) (chain : List (Setter C A)) :
    let c := build chain
    (Filled c c.withDefaults ↔
      (∃ s ∈ chain, s.mdns?.isSome = true) ∧ ∃ s ∈ chain, s.SetsDht) ∧
    LastWriters nodes ephemeral rest resolve chain c ∧
    (∀ (c : Config C) (s t : Setter C A), (∀ f, ¬ (s.Writes f ∧ t.Writes f)) →
      (c.apply s).apply t = (c.apply t).apply s) ∧
    (∀ (c : Config C) (s : Setter C A), ¬ s.Writes .localAddr →
      (c.apply s).localAddr = c.localAddr) ∧
    c.withDefaults.withDefaults = c.withDefaults ∧ c.withDefaults.sections = c.sections := by
  intro c
  have hl := build_lastWriters h chain
  refine ⟨?_, hl, apply_comm h, apply_localAddr, withDefaults_eq _, ?_⟩
  · rw [filled_iff, hl.dht, hl.mdns, List.getLast?_isSome, Ne, List.filterMap_eq_nil_iff]
    apply and_congr_left'
    simp only [not_forall, exists_prop, Option.isSome_iff_ne_none]
  · rw [withDefaults_eq]

structure PlainDht where
  bootstrapNodes : List SocketAddr := []
  ephemeral : Bool := false
  deriving DecidableEq, Repr

instance : DhtConfig PlainDht (List SocketAddr) where
  default := {}
  setBootstrapNodes c nodes := { c with bootstrapNodes := nodes }
  setEphemeral c ephemeral := { c with ephemeral }

theorem plainDht_ownFields : DhtConfig.OwnFields PlainDht.bootstrapNodes PlainDht.ephemeral
    (fun _ => ()) (fun nodes : List SocketAddr => nodes) := by
  refine ⟨fun _ _ => rfl, fun _ _ => rfl, fun _ _ => rfl, fun _ _ => rfl, fun _ _ => rfl,
    fun _ _ => rfl, ?_⟩
  rintro ⟨nodes, ephemeral⟩ ⟨_, _⟩ rfl rfl -
  rfl

theorem build_filled_iff_replaced :
    let chain : List (Setter PlainDht (List SocketAddr)) :=
      [.setBootstrapNodes [loopback 4001], .setMdns default, .setDht {}, .setEphemeral true]
    Filled (build chain) (build chain).withDefaults ∧
      (build chain).dht = some { bootstrapNodes := [], ephemeral := true } := by
  intro chain
  have h := build_filled_iff plainDht_ownFields chain
  exact ⟨h.1.2 ⟨⟨.setMdns default, .tail _ (.head _), rfl⟩, .setDht {}, .tail _ (.tail _ (.head _)),
    trivial⟩, rfl⟩

/-- Neither section of a new config is filled in. -/
theorem new_withDefaults_unset :
    let c : Config PlainDht := new
    c.withDefaults = { mdns := none, dht := none, localAddr := none } ∧
      ¬ Filled c c.withDefaults :=
  ⟨rfl, fun h => by cases h.mdns⟩

end Config

end HyperswarmRs
