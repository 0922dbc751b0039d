import StoryMarkup.Proofs.Document.Redrawing
import StoryMarkup.Proofs.Bindings
import StoryMarkup.Render.Callback

/-! What rendering does to the tables of a stage: steps, with callbacks fired and names triggered
between. -/
namespace StoryMarkup.Render

open List

namespace Stage

def listed (s : Stage) (name : String) : List Nat := (s.redoables.get? name).getD []

def Holds (s : Stage) (number : Nat) : Prop := ∃ c, (number, c) ∈ s.callbacks

def Waits (s : Stage) (number : Nat) : Prop :=
  (∃ node event, (event, number) ∈ s.document.listeners node) ∨ ∃ t ∈ s.document.timers, t.callback = number

def registered (s : Stage) (c : Callback) : Stage :=
  { s with callbacks := (s.created + 1, c) :: s.callbacks, created := s.created + 1 }

def without (s : Stage) (number : Nat) : Stage := { s with callbacks := s.callbacks.filter fun c => c.1 != number }

def listing (s : Stage) (name : String) (ids : List Nat) : Stage := { s with redoables := s.redoables.insert name ids }

def settled (s : Stage) (name : String) : Stage :=
  match s.redoables.get? name with
  | some ids => s.listing name (ids.filter fun id => s.callbacks.any (·.1 == id))
  | none => s

lemma listed_listing (s : Stage) (name other : String) (ids : List Nat) :
    (s.listing name ids).listed other = if other = name then ids else s.listed other := by
  rw [listed, listing, Bindings.get?_insert]
  split <;> rfl

lemma holds_iff_any {s : Stage} {number : Nat} : s.Holds number ↔ (s.callbacks.any (·.1 == number)) = true := by
  simp [Holds, any_eq_true]

lemma listed_settled (s : Stage) (name other : String) :
    (s.settled name).listed other =
      if other = name then (s.listed name).filter fun id => s.callbacks.any (·.1 == id) else s.listed other := by
  unfold settled
  cases hname : s.redoables.get? name with
  | some ids =>
    have hlisted : s.listed name = ids := by rw [listed, hname, Option.getD_some]
    rw [hlisted]
    exact s.listed_listing name other _
  | none =>
    have hlisted : s.listed name = [] := by rw [listed, hname, Option.getD_none]
    by_cases heq : other = name
    · rw [if_pos heq, hlisted, heq, hlisted, filter_nil]
    · rw [if_neg heq]

lemma settled_eq (s : Stage) (name : String) :
    (s.settled name).document = s.document ∧ (s.settled name).callbacks = s.callbacks ∧
      (s.settled name).created = s.created := by
  unfold settled
  split <;> exact ⟨rfl, rfl, rfl⟩

end Stage

/-- Nothing is new: the document is drawn on, and callbacks and regions are gone at most, no region
without those that it lists. -/
structure Thinned (s t : Stage) : Prop where
  redrawn : s.document.Redrawn t.document
  created_eq : t.created = s.created
  callbacks : t.callbacks.Sublist s.callbacks
  listed : ∀ name, (t.listed name).Sublist (s.listed name)
  holds : ∀ name number, number ∈ t.listed name → s.Holds number → t.Holds number

inductive Step : Stage → Stage → Prop
  | thin : Thinned s t → Step s t
  | listen (c : Callback) (node : Nat) (event : String) : c.anchor ≠ Document.root →
    Step s { s.registered c with document := s.document.subscribe node event (s.created + 1) }
  | postpone (c : Callback) (delay : Nat) : c.anchor ≠ Document.root →
    Step s { s.registered c with document := s.document.schedule delay (s.created + 1) }
  | region (c : Callback) (name : String) : c.anchor ≠ Document.root → c.once = false →
    Step s ((s.registered c).listing name (s.listed name ++ [s.created + 1]))

/-- One stage comes of another by steps, while the callbacks of some numbers may be fired in order:
to fire one leaves the table alone or takes the callback out of it. Where a name is triggered, those
are fired that are listed then, and the regions of the name are settled. -/
inductive Course : List Nat → Stage → Stage → Prop
  | done : Course [] s s
  | step : Step s t → Course nums t u → Course nums s u
  | trigger (name : String) : Course (s.listed name) s t → Course nums (t.settled name) u → Course nums s u
  | skip : Course nums s u → Course (number :: nums) s u
  | drop : Course nums (s.without number) u → Course (number :: nums) s u

namespace Course

variable {nums more : List Nat} {s t u : Stage}

lemma append (h : Course nums s t) (h' : Course more t u) : Course (nums ++ more) s u := by
  induction h with
  | done => exact h'
  | step hstep _ ih => exact .step hstep (ih h')
  | trigger name hfirst _ _ ih => exact .trigger name hfirst (ih h')
  | skip _ ih => exact .skip (ih h')
  | drop _ ih => exact .drop (ih h')

lemma of_step (h : Step s t) : Course [] s t := .step h .done

lemma idle (nums : List Nat) (s : Stage) : Course nums s s := by
  induction nums with
  | nil => exact .done
  | cons number rest ih => exact .skip ih

end Course

/-! What only grows: numbers are given out in order, and everything in the tables was there or has a
new number. -/

structure Later (s t : Stage) : Prop where
  size_le : s.document.nodes.size ≤ t.document.nodes.size
  created_le : s.created ≤ t.created
  callbacks : ∀ p ∈ t.callbacks, p ∈ s.callbacks ∨ s.created < p.1
  listed : ∀ name, ∀ number ∈ t.listed name, number ∈ s.listed name ∨ s.created < number

namespace Later

variable {s t u : Stage}

lemma refl (s : Stage) : Later s s := ⟨Nat.le_refl _, Nat.le_refl _, fun _ => .inl, fun _ _ => .inl⟩

lemma trans (h : Later s t) (h' : Later t u) : Later s u where
  size_le := Nat.le_trans h.size_le h'.size_le
  created_le := Nat.le_trans h.created_le h'.created_le
  callbacks := fun p hp => (h'.callbacks p hp).elim (h.callbacks p) fun hlt =>
    .inr (Nat.lt_of_le_of_lt h.created_le hlt)
  listed := fun name number hn =>
    (h'.listed name number hn).elim (h.listed name number) fun hlt => .inr (Nat.lt_of_le_of_lt h.created_le hlt)

lemma of_thinned (h : Thinned s t) : Later s t where
  size_le := h.redrawn.size_le
  created_le := Nat.le_of_eq h.created_eq.symm
  callbacks := fun _ hp => .inl (h.callbacks.subset hp)
  listed := fun name _ hn => .inl ((h.listed name).subset hn)

lemma without (s : Stage) (number : Nat) : Later s (s.without number) :=
  ⟨Nat.le_refl _, Nat.le_refl _, fun _ hp => .inl (mem_filter.1 hp).1, fun _ _ => .inl⟩

lemma of_registered {c : Callback} (hsize : s.document.nodes.size ≤ t.document.nodes.size)
    (hcallbacks : t.callbacks = (s.registered c).callbacks) (hcreated : t.created = s.created + 1)
    (hlisted : ∀ name, ∀ number ∈ t.listed name, number ∈ s.listed name ∨ number = s.created + 1) : Later s t where
  size_le := hsize
  created_le := by omega
  callbacks := fun p hp => by
    rw [hcallbacks] at hp
    obtain rfl | hold := mem_cons.1 hp
    · exact .inr (Nat.lt_succ_self _)
    · exact .inl hold
  listed := fun name number hn => (hlisted name number hn).imp id fun heq => by omega

lemma of_step (h : Step s t) : Later s t := by
  cases h with
  | thin h => exact of_thinned h
  | listen c node event =>
    exact of_registered (Nat.le_of_eq (Document.size_modifyNode _ _ _).symm) rfl rfl fun _ _ => .inl
  | postpone c delay => exact of_registered (Nat.le_refl _) rfl rfl fun _ _ => .inl
  | region c name =>
    refine of_registered (Nat.le_refl _) rfl rfl fun other number hn => ?_
    rw [Stage.listed_listing] at hn
    split at hn
    · rename_i heq
      rw [heq]
      exact (mem_append.1 hn).imp id mem_singleton.1
    · exact .inl hn

lemma settled (s : Stage) (name : String) : Later s (s.settled name) := by
  obtain ⟨hdocument, hcallbacks, hcreated⟩ := s.settled_eq name
  have hsize : s.document.nodes.size = (s.settled name).document.nodes.size := by rw [hdocument]
  refine ⟨Nat.le_of_eq hsize, Nat.le_of_eq hcreated.symm, fun p hp => ?_, fun other number hn => ?_⟩
  · rw [hcallbacks] at hp
    exact .inl hp
  · rw [Stage.listed_settled] at hn
    split at hn
    · rename_i heq
      rw [heq]
      exact .inl (mem_filter.1 hn).1
    · exact .inl hn

end Later

variable {nums : List Nat} {s t : Stage}

lemma Course.later (h : Course nums s t) : Later s t := by
  induction h with
  | done => exact .refl _
  | step hstep _ ih => exact (Later.of_step hstep).trans ih
  | trigger name _ _ ihfirst ih => exact ihfirst.trans ((Later.settled _ name).trans ih)
  | skip _ ih => exact ih
  | drop _ ih => exact (Later.without _ _).trans ih

structure Stage.Spent (s : Stage) (number : Nat) : Prop where
  made : number ≤ s.created
  gone : ¬ s.Holds number

lemma Later.spent (h : Later s t) {number : Nat} (hs : s.Spent number) : t.Spent number := by
  refine ⟨Nat.le_trans hs.made h.created_le, fun ⟨c, hc⟩ => ?_⟩
  obtain hold | hnew := h.callbacks _ hc
  · exact hs.gone ⟨c, hold⟩
  · exact absurd hs.made (Nat.not_le_of_lt hnew)

structure Stage.Free (s : Stage) (number : Nat) : Prop where
  made : number ≤ s.created
  unlisted : ∀ name, number ∉ s.listed name

lemma Later.free (h : Later s t) {number : Nat} (hs : s.Free number) : t.Free number := by
  refine ⟨Nat.le_trans hs.made h.created_le, fun name hmem => ?_⟩
  obtain hold | hnew := h.listed name number hmem
  · exact hs.unlisted name hold
  · exact absurd hs.made (Nat.not_le_of_lt hnew)

/-! What holds of the tables at any time. -/

structure Sound (s : Stage) : Prop where
  nodes_pos : 0 < s.document.nodes.size
  linked : s.document.Linked
  anchors : ∀ p ∈ s.callbacks, p.2.anchor ≠ Document.root
  numbers_le : ∀ p ∈ s.callbacks, p.1 ≤ s.created
  numbers_nodup : (s.callbacks.map (·.1)).Nodup
  listed_le : ∀ name, ∀ number ∈ s.listed name, number ≤ s.created
  listed_nodup : ∀ name, (s.listed name).Nodup
  /-- A region has one name. -/
  listed_inj : ∀ name name' number, number ∈ s.listed name → number ∈ s.listed name' → name = name'
  /-- A region can be rendered again and again. -/
  regions : ∀ name number c, number ∈ s.listed name → (number, c) ∈ s.callbacks → c.once = false
  /-- What waits in the document is no region. -/
  waits : ∀ number, s.Waits number → s.Free number

namespace Sound

lemma thin (hs : Sound s) (hdocument : s.document.Redrawn t.document)
    (hcreated : t.created = s.created) (hcallbacks : t.callbacks.Sublist s.callbacks)
    (hlisted : ∀ name, (t.listed name).Sublist (s.listed name)) : Sound t where
  nodes_pos := Nat.lt_of_lt_of_le hs.nodes_pos hdocument.size_le
  linked := hdocument.linked hs.linked
  anchors := fun p hp => hs.anchors p (hcallbacks.subset hp)
  numbers_le := fun p hp => hcreated ▸ hs.numbers_le p (hcallbacks.subset hp)
  numbers_nodup := hs.numbers_nodup.sublist (hcallbacks.map _)
  listed_le := fun name number hn => hcreated ▸ hs.listed_le name number ((hlisted name).subset hn)
  listed_nodup := fun name => (hs.listed_nodup name).sublist (hlisted name)
  listed_inj := fun name name' number hn hn' =>
    hs.listed_inj name name' number ((hlisted name).subset hn) ((hlisted name').subset hn')
  regions := fun name number c hn hc => hs.regions name number c ((hlisted name).subset hn) (hcallbacks.subset hc)
  waits := fun number hwaits => by
    have hbefore : s.Waits number := hwaits.imp (fun ⟨node, event, hmem⟩ => ⟨node, event,
      hdocument.listeners_eq node ▸ hmem⟩)
      fun ⟨timer, htimer, heq⟩ => ⟨timer, hdocument.timers htimer, heq⟩
    obtain ⟨hle, hnot⟩ := hs.waits number hbefore
    exact ⟨hcreated ▸ hle, fun name hn => hnot name ((hlisted name).subset hn)⟩

lemma without (hs : Sound s) (number : Nat) : Sound (s.without number) :=
  hs.thin (.refl _) rfl filter_sublist fun _ => .refl _

lemma settled (hs : Sound s) (name : String) : Sound (s.settled name) := by
  obtain ⟨hdocument, hcallbacks, hcreated⟩ := s.settled_eq name
  refine hs.thin (hdocument ▸ .refl _) hcreated (hcallbacks ▸ .refl _) fun other => ?_
  rw [Stage.listed_settled]
  split
  · rename_i heq
    rw [heq]
    exact filter_sublist
  · exact .refl _

lemma wait {c : Callback} {document : Document} (hs : Sound s) (hanchor : c.anchor ≠ Document.root)
    (hsize : s.document.nodes.size ≤ document.nodes.size) (hlinked : document.Linked)
    (hwaits : ∀ number, Stage.Waits { s with document } number → s.Waits number ∨ number = s.created + 1) :
    Sound { s.registered c with document } where
  nodes_pos := Nat.lt_of_lt_of_le hs.nodes_pos hsize
  linked := hlinked
  anchors := forall_mem_cons.2 ⟨hanchor, hs.anchors⟩
  numbers_le := forall_mem_cons.2 ⟨Nat.le_refl _, fun p hp => Nat.le_succ_of_le (hs.numbers_le p hp)⟩
  numbers_nodup := nodup_cons.2 ⟨fun hmem => by
    obtain ⟨p, hp, heq⟩ := mem_map.1 hmem
    exact absurd (hs.numbers_le p hp) (by rw [heq]; exact Nat.not_succ_le_self _), hs.numbers_nodup⟩
  listed_le := fun name number hn => Nat.le_succ_of_le (hs.listed_le name number hn)
  listed_nodup := hs.listed_nodup
  listed_inj := hs.listed_inj
  regions := fun name number c' hn hc => by
    obtain heq | hold := mem_cons.1 hc
    · cases heq
      have hle := hs.listed_le name _ hn
      omega
    · exact hs.regions name number c' hn hold
  waits := fun number hnumber => by
    obtain hbefore | rfl := hwaits number hnumber
    · obtain ⟨hle, hnot⟩ := hs.waits number hbefore
      exact ⟨Nat.le_succ_of_le hle, hnot⟩
    · refine ⟨Nat.le_refl _, fun name hn => ?_⟩
      have hle := hs.listed_le name _ hn
      omega

lemma region {c : Callback} {name : String} (hs : Sound s) (hanchor : c.anchor ≠ Document.root)
    (honce : c.once = false) :
    Sound ((s.registered c).listing name (s.listed name ++ [s.created + 1])) := by
  have hbase : Sound (s.registered c) := hs.wait hanchor (Nat.le_refl _) hs.linked fun _ => .inl
  have hfresh : ∀ other, s.created + 1 ∉ s.listed other := fun other hmem => by
    have hle := hs.listed_le other _ hmem
    omega
  -- what is listed was listed under the name, or is the new number under the new name
  have hlisted : ∀ other number, number ∈ ((s.registered c).listing name (s.listed name ++
      [s.created + 1])).listed other →
      number ∈ s.listed other ∨ other = name ∧ number = s.created + 1 := by
    intro other number hmem
    rw [Stage.listed_listing] at hmem
    split at hmem
    · rename_i heq
      rw [heq]
      exact (mem_append.1 hmem).imp id fun hlast => ⟨rfl, mem_singleton.1 hlast⟩
    · exact .inl hmem
  refine { hbase with listed_le := ?_, listed_nodup := ?_, listed_inj := ?_, regions := ?_, waits := ?_ }
  · intro other number hmem
    obtain hold | ⟨_, rfl⟩ := hlisted other number hmem
    · exact hbase.listed_le other number hold
    · exact Nat.le_refl _
  · intro other
    rw [Stage.listed_listing]
    split
    · refine nodup_append.2 ⟨hs.listed_nodup name, nodup_cons.2 ⟨nofun, nodup_nil⟩, fun number hmem
        other' hlast heq => ?_⟩
      rw [heq, mem_singleton.1 hlast] at hmem
      exact hfresh name hmem
    · exact hs.listed_nodup other
  · intro other other' number hmem hmem'
    obtain hold | ⟨rfl, rfl⟩ := hlisted other number hmem
    · obtain hold' | ⟨_, rfl⟩ := hlisted other' number hmem'
      · exact hs.listed_inj other other' number hold hold'
      · exact absurd hold (hfresh other)
    · obtain hold' | ⟨rfl, _⟩ := hlisted other' _ hmem'
      · exact absurd hold' (hfresh other')
      · rfl
  · intro other number c' hmem hc
    obtain hold | ⟨_, rfl⟩ := hlisted other number hmem
    · exact hbase.regions other number c' hold hc
    · obtain heq | hbefore := mem_cons.1 hc
      · cases heq
        exact honce
      · have hle := hs.numbers_le _ hbefore
        dsimp only at hle
        omega
  · intro number hwaits
    obtain ⟨hle, hnot⟩ := hs.waits number hwaits
    refine ⟨Nat.le_succ_of_le hle, fun other hmem => ?_⟩
    obtain hold | ⟨_, rfl⟩ := hlisted other number hmem
    · exact hnot other hold
    · omega

lemma of_step (h : Step s t) (hs : Sound s) : Sound t := by
  cases h with
  | thin h => exact hs.thin h.redrawn h.created_eq h.callbacks h.listed
  | listen c node event hanchor =>
    have hsize : s.document.nodes.size ≤ (s.document.subscribe node event (s.created + 1)).nodes.size :=
      Nat.le_of_eq (Document.size_modifyNode _ _ _).symm
    refine hs.wait hanchor hsize (hs.linked.perform (.subscribe node event _)) fun number hwaits => ?_
    obtain ⟨x, event', hmem⟩ | htimer := hwaits
    · exact (Document.mem_listeners_subscribe _ hmem).imp (fun hold => .inl ⟨x, event', hold⟩) id
    · exact .inl (.inr htimer)
  | postpone c delay hanchor =>
    have hlinked : (s.document.schedule delay (s.created + 1)).Linked := hs.linked.congr (fun _ => rfl) fun _ => rfl
    refine hs.wait hanchor (Nat.le_refl _) hlinked fun number hwaits => ?_
    obtain hlistener | ⟨timer, htimer, rfl⟩ := hwaits
    · exact .inl (.inl hlistener)
    · obtain hold | hnew := mem_append.1 htimer
      · exact .inl (.inr ⟨timer, hold, rfl⟩)
      · rw [mem_singleton.1 hnew]
        exact .inr rfl
  | region c name hanchor honce => exact hs.region hanchor honce

end Sound

lemma Course.sound (h : Course nums s t) (hs : Sound s) : Sound t := by
  induction h with
  | done => exact hs
  | step hstep _ ih => exact ih (hs.of_step hstep)
  | trigger name _ _ ihfirst ih => exact ih ((ihfirst hs).settled name)
  | skip _ ih => exact ih hs
  | drop _ ih => exact ih (hs.without _)

def Stage.Dangles (s : Stage) (number : Nat) : Prop := (∃ name, number ∈ s.listed name) ∧ ¬ s.Holds number

lemma Step.dangles {number : Nat} (h : Step s t) (hdangles : t.Dangles number) : s.Dangles number := by
  obtain ⟨⟨other, hmem⟩, hgone⟩ := hdangles
  cases h with
  | thin h => exact ⟨⟨other, (h.listed other).subset hmem⟩, fun hold => hgone (h.holds other number hmem hold)⟩
  | listen | postpone => exact ⟨⟨other, hmem⟩, fun ⟨c, hc⟩ => hgone ⟨c, .tail _ hc⟩⟩
  | region c name =>
    refine ⟨⟨other, ?_⟩, fun ⟨c', hc⟩ => hgone ⟨c', .tail _ hc⟩⟩
    rw [Stage.listed_listing] at hmem
    split at hmem
    · rename_i heq
      obtain hold | hnew := mem_append.1 hmem
      · rw [heq]
        exact hold
      · rw [mem_singleton.1 hnew] at hgone
        exact absurd ⟨c, .head _⟩ hgone
    · exact hmem

lemma Stage.Dangles.of_without {number fired : Nat} (h : (s.without fired).Dangles number) :
    s.Dangles number ∨ number = fired := by
  by_cases heq : number = fired
  · exact .inr heq
  · exact .inl ⟨h.1, fun ⟨c, hc⟩ => h.2 ⟨c, mem_filter.2 ⟨hc, bne_iff_ne.2 heq⟩⟩⟩

lemma Stage.Dangles.of_settled {name : String} {number : Nat} (h : (s.settled name).Dangles number) :
    (∃ other, other ≠ name ∧ number ∈ s.listed other) ∧ ¬ s.Holds number := by
  obtain ⟨⟨other, hmem⟩, hgone⟩ := h
  have hheld : ¬ s.Holds number := fun ⟨c, hc⟩ => hgone ⟨c, (s.settled_eq name).2.1 ▸ hc⟩
  rw [listed_settled] at hmem
  split at hmem
  · exact absurd (holds_iff_any.2 (mem_filter.1 hmem).2) hheld
  · rename_i hother
    exact ⟨⟨other, hother, hmem⟩, hheld⟩

/-- A region can only come to dangle by a callback that is fired from outside: those that are fired
because their name is triggered are taken out of the name. -/
theorem Course.dangles {number : Nat} (h : Course nums s t) (hs : Sound s)
    (hdangles : t.Dangles number) : s.Dangles number ∨ number ∈ nums := by
  induction h with
  | done => exact .inl hdangles
  | step hstep _ ih => exact (ih (hs.of_step hstep) hdangles).imp hstep.dangles id
  | @trigger s t _ _ name hfirst _ ihfirst ih =>
    refine (ih ((hfirst.sound hs).settled name) hdangles).imp (fun hsettled => ?_) id
    obtain ⟨⟨other, hother, hmem⟩, hgone⟩ := hsettled.of_settled
    obtain hbefore | hlisted := ihfirst hs ⟨⟨other, hmem⟩, hgone⟩
    · exact hbefore
    · -- the number is listed under the name that is triggered, and so under no other one
      obtain hold | hnew := hfirst.later.listed other number hmem
      · exact absurd (hs.listed_inj other name number hold hlisted) hother
      · exact absurd (hs.listed_le name number hlisted) (Nat.not_le_of_lt hnew)
  | skip _ ih => exact (ih hs hdangles).imp id (.tail _)
  | drop _ ih =>
    obtain hbefore | hmem := ih (hs.without _) hdangles
    · exact hbefore.of_without.imp id fun heq => mem_cons.2 (.inl heq)
    · exact .inr (.tail _ hmem)

structure Whole (s : Stage) : Prop extends Sound s where
  none_dangles : ∀ number, ¬ s.Dangles number

lemma Course.whole (h : Course nums s t) (hs : Whole s) (hfree : ∀ number ∈ nums, s.Free number) : Whole t := by
  refine ⟨h.sound hs.toSound, fun number hdangles => ?_⟩
  obtain hbefore | hmem := h.dangles hs.toSound hdangles
  · exact hs.none_dangles number hbefore
  · obtain ⟨⟨name, hlisted⟩, -⟩ := hdangles
    exact (h.later.free (hfree number hmem)).unlisted name hlisted

lemma Whole.count_eq_one {s : Stage} (hs : Whole s) {name : String} {ids : List Nat}
    (hids : s.redoables.get? name = some ids)
    {number : Nat} (hmem : number ∈ ids) : ids.count number = 1 ∧ (s.callbacks.map (·.1)).count number = 1 := by
  have hlisted : s.listed name = ids := by rw [Stage.listed, hids, Option.getD_some]
  rw [← hlisted] at hmem ⊢
  have hholds : s.Holds number := Classical.not_not.1 fun hgone => hs.none_dangles number ⟨⟨name, hmem⟩, hgone⟩
  obtain ⟨c, hc⟩ := hholds
  have hnumber : number ∈ s.callbacks.map (·.1) := mem_map.2 ⟨_, hc, rfl⟩
  rw [Nodup.count (hs.listed_nodup name), if_pos hmem, Nodup.count hs.numbers_nodup, if_pos hnumber]
  exact ⟨rfl, rfl⟩

/-- A stage that comes after another one: its callbacks have distinct numbers that have been given
out, and what had been given out before stands for the same callback as before. -/
structure Numbered (s t : Stage) : Prop where
  created_le : s.created ≤ t.created
  nodup : (t.callbacks.map (·.1)).Nodup
  le_created : ∀ p ∈ t.callbacks, p.1 ≤ t.created
  same : ∀ p ∈ t.callbacks, p.1 ≤ s.created → p ∈ s.callbacks

lemma Numbered.of_sound {s t : Stage} (hlater : Later s t) (ht : Sound t) : Numbered s t where
  created_le := hlater.created_le
  nodup := ht.numbers_nodup
  le_created := ht.numbers_le
  same := fun p hp hle => (hlater.callbacks p hp).elim id fun hlt => absurd hle (Nat.not_le_of_lt hlt)

end StoryMarkup.Render
