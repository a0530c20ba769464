/-
**Forests of environments.**

Environments are made one after the other, each on its own or inside an earlier one, and names are
bound in them in any order.  The history of a forest tells inside which environment each was made.
To go outwards from one to the next comes to an end, and what the frames of an environment are is
just that way outwards: its own frame, then that of the environment around it, and so on.  So two
environments that were made inside the same one share its frame and all behind it.

All operations on a name agree on where they look for it, and a write changes one name of one frame,
for all environments that go through that frame.

Main definitions:

* `Scriptlet.Forest`, `Scriptlet.Forest.Act`, `Scriptlet.Forest.run` — forests, and what is done in
  them;
* `Scriptlet.Forest.links`, `Scriptlet.Forest.Outward` — inside which environment each was made, and
  the way outwards;
* `Scriptlet.Forest.Grown` — a forest as its history says;
* `Scriptlet.Forest.Agrees` — an environment whose operations agree.

Main results:

* `Scriptlet.Forest.Outward.descending` — the way outwards comes by no environment twice;
* `Scriptlet.Forest.Grown.step`, `Scriptlet.Forest.Grown.run` — **a forest is as its history says**;
* `Scriptlet.Forest.operations_agree` — **the operations agree in every forest**.
-/

import Scriptlet.Proofs.Environment.Walks

set_option relaxedAutoImplicit false
set_option autoImplicit false

namespace Scriptlet

/-- The environments that have been made, by their numbers, and the store with their frames. -/
structure Forest where
  /-- The frames. -/
  store : Store
  /-- The environments. -/
  environments : List Environment

namespace Forest

/-! ### What is done in a forest -/

/-- What is done in a forest; environments are told by their numbers. -/
inductive Act
  /-- An environment is made on its own. -/
  | make
  /-- An environment is made inside another. -/
  | enclose (outer : Nat)
  /-- A name is bound in the own frame of an environment. -/
  | define (e : Nat) (name : String) (v : Value)
  /-- A name gets a value where it is bound. -/
  | assign (e : Nat) (name : String) (v : Value)
  /-- A name gets a value a given number of frames out. -/
  | assignAt (e distance : Nat) (name : String) (v : Value)

/-- A forest without environments. -/
def empty : Forest := ⟨.empty, []⟩

/-- A forest with one more environment. -/
def add (f : Forest) (made : Environment × Store) : Forest := ⟨made.2, f.environments ++ [made.1]⟩

/-- What a forest is after an act.  Nothing is done with an environment that does not exist. -/
def step (f : Forest) : Act → Option Forest
  | .make => some (f.add f.store.newEnvironment)
  | .enclose outer => f.environments[outer]?.map fun env => f.add (f.store.child env)
  | .define e name v =>
      f.environments[e]?.map fun env => { f with store := f.store.define env name v }
  | .assign e name v =>
      f.environments[e]?.map fun env => { f with store := (f.store.assign env name v).2 }
  | .assignAt e distance name v =>
      f.environments[e]?.map fun env => { f with store := (f.store.assignAt env distance name v).2 }

/-- What a forest is after a list of acts. -/
def run (f : Forest) : List Act → Option Forest
  | [] => some f
  | act :: acts => (f.step act).bind fun f' => f'.run acts

/-! ### What a history says -/

/-- The environment inside which an act makes one, if it makes one. -/
def Act.link? : Act → Option (Option Nat)
  | .make => some none
  | .enclose outer => some (some outer)
  | _ => none

/-- The environment inside which each was made, by numbers. -/
def links (acts : List Act) : List (Option Nat) := acts.filterMap Act.link?

theorem links_concat (acts : List Act) (act : Act) :
    links (acts ++ [act]) = links acts ++ act.link?.toList := by
  unfold links
  cases h : act.link? <;> simp [List.filterMap_append, h]

/-- **The way outwards from an environment**, up to one that was made on its own. -/
inductive Outward (links : List (Option Nat)) : Nat → List Nat → Prop
  | root {e : Nat} (h : links[e]? = some none) : Outward links e [e]
  | step {e outer : Nat} {chain : List Nat} (h : links[e]? = some (some outer))
      (rest : Outward links outer chain) : Outward links e (e :: chain)

namespace Outward

variable {ls ls' : List (Option Nat)} {e : Nat} {chain chain' : List Nat}

/-- There is one way outwards. -/
theorem unique (h : Outward ls e chain) (h' : Outward ls e chain') : chain = chain' := by
  induction h generalizing chain' with
  | root he =>
      cases h' with
      | root _ => rfl
      | step he' _ =>
          rw [he] at he'
          cases he'
  | step he _ ih =>
      cases h' with
      | root he' =>
          rw [he] at he'
          cases he'
      | step he' rest' =>
          rw [he] at he'
          cases he'
          rw [ih rest']

/-- It stays the same when there are more environments. -/
theorem append (h : Outward ls e chain) (ls' : List (Option Nat)) :
    Outward (ls ++ ls') e chain := by
  have hleft : ∀ {i : Nat} {link : Option Nat}, ls[i]? = some link → (ls ++ ls')[i]? = some link :=
    fun hi => by rw [List.getElem?_append_left (List.getElem?_eq_some_iff.1 hi).1, hi]
  induction h with
  | root he => exact .root (hleft he)
  | step he _ ih => exact .step (hleft he) ih

/-- **It comes by no environment twice**, for each was made inside an earlier one. -/
theorem descending (hearlier : ∀ i outer : Nat, ls[i]? = some (some outer) → outer < i)
    (h : Outward ls e chain) : chain.Pairwise (· > ·) ∧ ∀ a ∈ chain, a ≤ e := by
  induction h with
  | root he =>
      exact ⟨List.pairwise_singleton _ _, fun a ha => Nat.le_of_eq (List.mem_singleton.1 ha)⟩
  | @step e outer chain he _ ih =>
      have hlt : ∀ a ∈ chain, a < e := fun a ha =>
        Nat.lt_of_le_of_lt (ih.2 a ha) (hearlier e outer he)
      refine ⟨List.pairwise_cons.2 ⟨hlt, ih.1⟩, fun a ha => ?_⟩
      rcases List.mem_cons.1 ha with rfl | ha
      · exact Nat.le_refl a
      · exact Nat.le_of_lt (hlt a ha)

/-- It begins with the environment itself. -/
theorem head (h : Outward ls e chain) : chain.head? = some e := by
  cases h <;> rfl

end Outward

/-! ### A forest is as its history says -/

/-- A forest as a history says that it is: each environment has a frame of its own, and its chain is
the way outwards. -/
structure Grown (f : Forest) (acts : List Act) : Prop where
  frames : f.store.frames.size = f.environments.length
  count : (links acts).length = f.environments.length
  earlier : ∀ e outer : Nat, (links acts)[e]? = some (some outer) → outer < e
  outward : ∀ e env, f.environments[e]? = some env → Outward (links acts) e env.chain

namespace Grown

variable {f f' : Forest} {acts : List Act} {act : Act} {e : Nat} {env : Environment}

theorem empty : Forest.empty.Grown [] := ⟨rfl, rfl, nofun, nofun⟩

/-- The frames of an environment are there. -/
theorem chain_lt (h : f.Grown acts) (he : f.environments[e]? = some env) :
    ∀ a ∈ env.chain, a < f.store.frames.size := by
  intro a ha
  rw [h.frames]
  have hle := ((h.outward e env he).descending h.earlier).2 a ha
  exact Nat.lt_of_le_of_lt hle (List.getElem?_eq_some_iff.1 he).1

/-- An act that makes no environment and no frame leaves the history of the environments as it
was. -/
theorem written (h : f.Grown acts) (hact : act.link? = none) {s : Store}
    (hs : s.frames.size = f.store.frames.size) :
    ({ f with store := s } : Forest).Grown (acts ++ [act]) := by
  have hlinks : links (acts ++ [act]) = links acts := by
    rw [links_concat, hact]
    exact List.append_nil _
  exact ⟨hs.trans h.frames, hlinks ▸ h.count, hlinks ▸ h.earlier, hlinks ▸ h.outward⟩

/-- An environment that is made has the next number, a fresh frame, and the way outwards of the
environment around it. -/
theorem added (h : f.Grown acts) {link : Option Nat} (hact : act.link? = some link)
    {made : Environment × Store} (hsize : made.2.frames.size = f.store.frames.size + 1)
    (hearlier : ∀ outer, link = some outer → outer < f.environments.length)
    (hmade : Outward (links acts ++ [link]) f.environments.length made.1.chain) :
    (f.add made).Grown (acts ++ [act]) := by
  have hlinks : links (acts ++ [act]) = links acts ++ [link] := by
    rw [links_concat, hact]
    rfl
  have hlength : (f.add made).environments.length = f.environments.length + 1 :=
    List.length_append
  constructor
  case frames => rw [hlength, ← h.frames]; exact hsize
  case count => rw [hlinks, hlength, List.length_append, h.count]; rfl
  case earlier =>
    intro i outer hi
    rw [hlinks, List.getElem?_append] at hi
    split at hi
    · exact h.earlier i outer hi
    · rename_i hge
      obtain ⟨hlt, hlink⟩ := List.getElem?_eq_some_iff.1 hi
      have hi0 : i - (links acts).length = 0 := Nat.lt_one_iff.1 hlt
      simp only [hi0, List.getElem_cons_zero] at hlink
      have := hearlier outer hlink
      have := h.count
      omega
  case outward =>
    intro i env hi
    rw [hlinks]
    change (f.environments ++ [made.1])[i]? = some env at hi
    rw [List.getElem?_append] at hi
    split at hi
    · exact (h.outward i env hi).append [link]
    · rename_i hge
      obtain ⟨hlt, henv⟩ := List.getElem?_eq_some_iff.1 hi
      have hi0 : i - f.environments.length = 0 := Nat.lt_one_iff.1 hlt
      simp only [hi0, List.getElem_cons_zero] at henv
      obtain rfl : i = f.environments.length := by omega
      exact henv ▸ hmade

/-- The link of an environment that has just been made. -/
theorem getElem?_links (h : f.Grown acts) (link : Option Nat) :
    (links acts ++ [link])[f.environments.length]? = some link := by
  rw [← h.count, List.getElem?_concat_length]

theorem make (h : f.Grown acts) : (f.add f.store.newEnvironment).Grown (acts ++ [.make]) := by
  refine h.added rfl (Array.size_push _) nofun ?_
  have hroot := Outward.root (h.getElem?_links none)
  rw [← h.frames] at hroot ⊢
  exact hroot

theorem enclose (h : f.Grown acts) {outer : Nat} (ho : f.environments[outer]? = some env) :
    (f.add (f.store.child env)).Grown (acts ++ [.enclose outer]) := by
  refine h.added rfl (Store.size_child _ _)
    (fun o hlink => Option.some.inj hlink ▸ (List.getElem?_eq_some_iff.1 ho).1) ?_
  have hstep := Outward.step (h.getElem?_links (some outer)) ((h.outward outer env ho).append _)
  rw [← h.frames] at hstep ⊢
  exact hstep

/-- One act more is in the history. -/
theorem step (h : f.Grown acts) (act : Act) (hf : f.step act = some f') :
    f'.Grown (acts ++ [act]) := by
  cases act with
  | make =>
      cases hf
      exact h.make
  | enclose outer =>
      obtain ⟨env, ho, rfl⟩ := Option.map_eq_some_iff.1 hf
      exact h.enclose ho
  | define e name v =>
      obtain ⟨env, -, rfl⟩ := Option.map_eq_some_iff.1 hf
      exact h.written rfl (f.store.frames_size_define env name v)
  | assign e name v =>
      obtain ⟨env, -, rfl⟩ := Option.map_eq_some_iff.1 hf
      exact h.written rfl (f.store.frames_size_assign env name v)
  | assignAt e distance name v =>
      obtain ⟨env, -, rfl⟩ := Option.map_eq_some_iff.1 hf
      exact h.written rfl (f.store.frames_size_assignAt env distance name v)

/-- **A forest is as its history says.** -/
theorem run (h : f.Grown acts) {later : List Act} (hf : f.run later = some f') :
    f'.Grown (acts ++ later) := by
  induction later generalizing f acts with
  | nil =>
      cases hf
      rw [List.append_nil]
      exact h
  | cons act later ih =>
      obtain ⟨f₁, hstep, hrun⟩ := Option.bind_eq_some_iff.1 hf
      have := ih (h.step act hstep) hrun
      rwa [List.append_assoc] at this

/-- **Behind its own frame an environment sees what the one around it sees.** -/
theorem behind (h : f.Grown acts) (he : f.environments[e]? = some env) {outer : Nat}
    (ho : (links acts)[e]? = some (some outer)) :
    ∃ around, f.environments[outer]? = some around ∧
      ∀ distance x, f.store.getAt? env (distance + 1) x = f.store.getAt? around distance x := by
  have hlt : outer < f.environments.length :=
    Nat.lt_trans (h.earlier e outer ho) (List.getElem?_eq_some_iff.1 he).1
  refine ⟨_, List.getElem?_eq_getElem hlt, fun distance x => ?_⟩
  have haround := h.outward outer _ (List.getElem?_eq_getElem hlt)
  have hchain := (h.outward e env he).unique (.step ho haround)
  obtain ⟨chain⟩ := env
  obtain rfl : chain = e :: f.environments[outer].chain := hchain
  exact f.store.getAt?_cons_succ e _ distance x

/-- The own frame of an environment has its number. -/
theorem define_eq (h : f.Grown acts) (he : f.environments[e]? = some env) (x : String) (v : Value) :
    f.store.define env x v = f.store.write e x v := by
  have hhead := (h.outward e env he).head
  obtain ⟨_ | ⟨a, chain⟩⟩ := env
  · cases hhead
  · obtain rfl : a = e := Option.some.inj hhead
    rfl

end Grown

/-! ### The operations agree -/

/-- **An environment whose operations agree**, in a forest with a given history. -/
structure Agrees (f : Forest) (acts : List Act) (e : Nat) (env : Environment) : Prop where
  /-- Its frames are those of the environments on the way outwards, which comes to an end. -/
  outward : Outward (links acts) e env.chain
  /-- The way outwards comes by no environment twice. -/
  descending : env.chain.Pairwise (· > ·)
  /-- Behind its own frame an environment sees what the one around it sees. -/
  behind : ∀ outer, (links acts)[e]? = some (some outer) →
    ∃ around, f.environments[outer]? = some around ∧
      ∀ distance x, f.store.getAt? env (distance + 1) x = f.store.getAt? around distance x
  /-- A name that is found is found in the first frame that binds it. -/
  found : ∀ x, (f.store.get? env x).isSome ↔ ∃ distance a, f.store.Nearest env x distance a
  get : ∀ x distance a, f.store.Nearest env x distance a →
    f.store.get? env x = f.store.getAt? env distance x
  /-- A name is not found exactly if no frame binds it. -/
  missing : ∀ x, f.store.get? env x = none ↔ ∀ distance, f.store.getAt? env distance x = none
  /-- A name gets a value exactly if it is found, and then in the same frame. -/
  assigned : ∀ x v, (f.store.assign env x v).1 = true ↔ (f.store.get? env x).isSome
  assign : ∀ x v distance a, f.store.Nearest env x distance a →
    (f.store.assign env x v).2 = f.store.write a x v
  unassigned : ∀ x v, f.store.get? env x = none → (f.store.assign env x v).2 = f.store
  /-- A name gets a value so many frames out exactly if there are more frames than that. -/
  assignedAt : ∀ distance x v,
    (f.store.assignAt env distance x v).1 = true ↔ distance < env.chain.length
  assignAt : ∀ distance x v a, env.chain[distance]? = some a →
    (f.store.assignAt env distance x v).2 = f.store.write a x v
  unassignedAt : ∀ distance x v, env.chain.length ≤ distance →
    (f.store.assignAt env distance x v).2 = f.store
  /-- A name is defined in the own frame. -/
  define : ∀ x v, f.store.define env x v = f.store.write e x v
  /-- A write to a frame is seen by all environments that go through it, and nothing else that any
  environment binds changes. -/
  written : ∀ a ∈ env.chain, ∀ x v, ∀ other ∈ f.environments, ∀ distance y,
    (f.store.write a x v).getAt? other distance y =
      if other.chain[distance]? = some a ∧ y = x then some v else f.store.getAt? other distance y

variable {f : Forest} {acts : List Act} {e : Nat} {env : Environment}

/-- **The operations on names agree in every forest**, however it has grown. -/
theorem operations_agree (hf : empty.run acts = some f) (he : f.environments[e]? = some env) :
    f.Agrees acts e env := by
  have h : f.Grown acts := Grown.empty.run hf
  constructor
  case outward => exact h.outward e env he
  case descending => exact ((h.outward e env he).descending h.earlier).1
  case behind => exact fun outer ho => h.behind he ho
  case found => exact fun x => Store.isSome_get?_iff
  case get => exact fun x distance a hnearest => hnearest.get?_eq
  case missing => exact fun x => Store.get?_eq_none_iff
  case assigned =>
    intro x v
    rcases f.store.nearest_or_unbound env x with ⟨distance, a, hnearest⟩ | hunbound
    · rw [hnearest.assign_eq, hnearest.get?_eq]
      exact iff_of_true rfl hnearest.bound
    · rw [Store.assign_eq_of_unbound hunbound, Store.get?_eq_none_iff.2 hunbound]
      exact iff_of_false nofun nofun
  case assign => exact fun x v distance a hnearest => by rw [hnearest.assign_eq]
  case unassigned =>
    exact fun x v hnone => by rw [Store.assign_eq_of_unbound (Store.get?_eq_none_iff.1 hnone)]
  case assignedAt =>
    intro distance x v
    rcases Nat.lt_or_ge distance env.chain.length with hlt | hle
    · rw [Store.assignAt_of_place (List.getElem?_eq_getElem hlt)]
      exact iff_of_true rfl hlt
    · rw [Store.assignAt_of_length_le hle]
      exact iff_of_false nofun (Nat.not_lt.2 hle)
  case assignAt => exact fun distance x v a ha => by rw [Store.assignAt_of_place ha]
  case unassignedAt => exact fun distance x v hle => by rw [Store.assignAt_of_length_le hle]
  case define => exact h.define_eq he
  case written =>
    intro a ha x v other _ distance y
    exact Store.getAt?_write (h.chain_lt he a ha) other x y v distance

/-- Two environments inside the same one; the second binds the name on its own, too. -/
def siblings : List Act :=
  [.make, .define 0 "x" .nil, .enclose 0, .enclose 0, .define 2 "x" .nil,
    .assign 1 "x" (.bool false), .assignAt 2 1 "y" .nil]

/-- What the first of two siblings gives a value to is what the second sees behind its own frame. -/
theorem operations_agree_siblings : ∃ f left right, empty.run siblings = some f ∧
    f.environments[1]? = some left ∧ f.environments[2]? = some right ∧
    f.Agrees siblings 1 left ∧
    (f.store.assign left "x" (.bool true)).2 = f.store.write 0 "x" (.bool true) ∧
    (f.store.write 0 "x" (.bool true)).getAt? right 1 "x" = some (.bool true) ∧
    (f.store.write 0 "x" (.bool true)).getAt? right 0 "x" = some .nil ∧
    (f.store.write 0 "x" (.bool true)).getAt? right 1 "y" = some .nil := by
  have hagrees := @operations_agree _ siblings 1 _ rfl rfl
  refine ⟨_, _, ⟨[2, 0]⟩, rfl, rfl, rfl, hagrees, ?_, ?_, ?_, ?_⟩
  · exact hagrees.assign "x" (.bool true) 1 0 ⟨rfl, rfl, fun d hd => by
      obtain rfl := Nat.lt_one_iff.1 hd
      rfl⟩
  all_goals rw [hagrees.written 0 (by decide) "x" (.bool true) ⟨[2, 0]⟩ (by decide)]; rfl

end Forest

end Scriptlet
