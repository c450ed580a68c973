/-
  ScriptModule/Proofs/Demand.lean
  ===============================
  **What a module constraint asks for.**  Of a merged constraint only its demand counts:
  the identity in any case, and the bounds by their version keys.  Merging a specification
  is then a partial join of demands.  The code compares with what has been merged so far;
  the join shows that the outcome does not depend on what came first.
-/
import Mathlib.Data.List.Lex
import Mathlib.Order.Lattice
import ScriptModule.Merge.Requirement
import ScriptModule.Outcome

namespace ScriptModule

/-! ### The order of version keys -/

theorem Version.less_iff_lt (a b : List Nat) : Version.less a b = true ↔ a < b := by
  induction a generalizing b with
  | nil => cases b <;> simp [Version.less]
  | cons x xs ih =>
    cases b with
    | nil => simp [Version.less]
    | cons y ys =>
      rw [List.cons_lt_cons_iff, ← ih]
      simp [Version.less]

/-- The higher of two versions does not depend on which one was there first. -/
theorem Requirement.higher_right_comm (kept : Option (Nat × Nat)) (v w : Nat × Nat) :
    higher (some (higher kept v)) w = higher (some (higher kept w)) v := by
  have hfirst : ∀ v w : Nat × Nat, higher (some v) w = higher (some w) v := by
    intro v w
    simp only [higher, Bool.or_eq_true, Bool.and_eq_true, decide_eq_true_eq, beq_iff_eq]
    split <;> split <;> first | rfl | exact Prod.ext (by omega) (by omega)
  cases kept with
  | none => exact hfirst v w
  | some k =>
    simp only [higher, Bool.or_eq_true, Bool.and_eq_true, decide_eq_true_eq, beq_iff_eq]
    repeat' split
    all_goals first | rfl | exact Prod.ext (by omega) (by omega)

theorem Requirement.higher_self (kept : Option (Nat × Nat)) (v : Nat × Nat) :
    higher (some (higher kept v)) v = higher kept v := by
  have hself : ∀ k : Nat × Nat, higher (some k) k = k := by
    intro k
    simp [higher]
  cases kept with
  | none => exact hself v
  | some k =>
    simp only [higher, Bool.or_eq_true, Bool.and_eq_true, decide_eq_true_eq, beq_iff_eq]
    repeat' split
    all_goals rfl

/-! ### Demands -/

/-- What a constraint asks for: the folded identity, and the keys of the lower bound, the
    upper bound and the exact version. -/
structure Demand where
  identity : Option Text := none
  low : Option (List Nat) := none
  high : Option (List Nat) := none
  pin : Option (List Nat) := none
deriving DecidableEq, Repr

namespace Demand

/-- Whether two values are given and differ. -/
def clash {α : Type} [DecidableEq α] : Option α → Option α → Bool
  | some a, some b => a != b
  | _, _ => false

def isRange (d : Demand) : Bool := d.low.isSome || d.high.isSome

/-- Whether `q` may be asked for on top of `d`: one identity, one exact version, and no
    exact version next to a bound. -/
def fits (d q : Demand) : Bool :=
  !clash d.identity q.identity && !clash d.pin q.pin &&
    !(d.pin.isSome && q.isRange) && !(q.pin.isSome && (d.isRange || q.isRange))

def join (d q : Demand) : Demand where
  identity := d.identity.or q.identity
  low := Option.merge max d.low q.low
  high := Option.merge min d.high q.high
  pin := d.pin.or q.pin

def with? (d q : Demand) : Option Demand := if d.fits q then some (d.join q) else none

section Clash

variable {α : Type} [DecidableEq α]

theorem clash_eq_false {a b : Option α} :
    clash a b = false ↔ ∀ x y, a = some x → b = some y → x = y := by
  cases a <;> cases b <;> simp [clash]

theorem clash_or (c a b : Option α) (h : clash c a = false) :
    clash (c.or a) b = (clash c b || clash a b) := by
  rw [clash_eq_false] at h
  cases c with
  | none => simp [clash]
  | some x =>
    cases a with
    | none => simp [clash]
    | some y =>
      obtain rfl : x = y := h x y rfl rfl
      simp

theorem clash_comm (a b : Option α) : clash a b = clash b a := by
  cases a <;> cases b <;> simp [clash, bne_comm]

theorem or_right_comm_of_clash {c a b : Option α} (h : clash a b = false) :
    (c.or a).or b = (c.or b).or a := by
  rw [clash_eq_false] at h
  cases c with
  | some x => rfl
  | none =>
    cases a with
    | none => cases b <;> rfl
    | some y =>
      cases b with
      | none => rfl
      | some z =>
        obtain rfl : y = z := h y z rfl rfl
        rfl

end Clash

@[simp] theorem identity_join (d q : Demand) :
    (d.join q).identity = d.identity.or q.identity := rfl

@[simp] theorem pin_join (d q : Demand) : (d.join q).pin = d.pin.or q.pin := rfl

@[simp] theorem isRange_join (d q : Demand) :
    (d.join q).isRange = (d.isRange || q.isRange) := by
  simp only [isRange, join, Option.isSome_merge]
  cases d.low.isSome <;> cases d.high.isSome <;> simp

/-- What is merged so far stands for every demand that went into it: a further one fits
    the join exactly if it fits each of them. -/
theorem fits_join {d p : Demand} (h : d.fits p = true) (q : Demand) :
    (d.join p).fits q = (d.fits q && p.fits q) := by
  simp only [fits, Bool.and_eq_true, Bool.not_eq_true'] at h
  have hidentity := clash_or d.identity p.identity q.identity h.1.1.1
  have hpin := clash_or d.pin p.pin q.pin h.1.1.2
  simp only [fits, isRange_join, identity_join, pin_join, hidentity, hpin, Option.isSome_or]
  grind

/-- Of two demands that may each be asked for, either fits the other or neither does. -/
theorem fits_comm {d p q : Demand} (hp : d.fits p = true) (hq : d.fits q = true) :
    p.fits q = q.fits p := by
  simp only [fits, Bool.and_eq_true, Bool.not_eq_true'] at hp hq
  simp only [fits, clash_comm q.identity p.identity, clash_comm q.pin p.pin]
  grind

theorem join_right_comm {d p q : Demand} (h : p.fits q = true) :
    (d.join p).join q = (d.join q).join p := by
  simp only [fits, Bool.and_eq_true, Bool.not_eq_true'] at h
  have hlow : ∀ a b c : Option (List Nat),
      Option.merge max (Option.merge max a b) c = Option.merge max (Option.merge max a c) b := by
    intro a b c
    cases a <;> cases b <;> cases c <;> simp [max_comm, max_left_comm]
  have hhigh : ∀ a b c : Option (List Nat),
      Option.merge min (Option.merge min a b) c = Option.merge min (Option.merge min a c) b := by
    intro a b c
    cases a <;> cases b <;> cases c <;> simp [min_comm, min_left_comm]
  simp only [join, mk.injEq]
  exact ⟨or_right_comm_of_clash h.1.1.1, hlow _ _ _, hhigh _ _ _,
    or_right_comm_of_clash h.1.1.2⟩

/-- Two demands may be asked for in either order, with the same outcome. -/
theorem with?_comm (d p q : Demand) :
    (d.with? p).bind (·.with? q) = (d.with? q).bind (·.with? p) := by
  by_cases hp : d.fits p = true <;> by_cases hq : d.fits q = true
  · have hcomm := fits_comm hp hq
    by_cases hpq : p.fits q = true
    · have hqp : q.fits p = true := hcomm ▸ hpq
      simp [with?, hp, hq, fits_join hp, fits_join hq, hpq, hqp, join_right_comm hpq]
    · have hqp : ¬ q.fits p = true := hcomm ▸ hpq
      simp [with?, hp, hq, fits_join hp, fits_join hq, hpq, hqp]
  · simp [with?, hp, hq, fits_join hp]
  · simp [with?, hp, hq, fits_join hq]
  · simp [with?, hp, hq]

theorem with?_again {d p e : Demand} (h : d.with? p = some e) : e.with? p = some e := by
  unfold with? at h
  split at h
  · next hp =>
    obtain rfl : d.join p = e := by simpa using h
    have hself : p.fits p = true := by
      simp only [fits, Bool.and_eq_true, Bool.not_eq_true'] at hp ⊢
      grind [clash_eq_false]
    have hjoin : (d.join p).join p = d.join p := by
      simp only [join, mk.injEq]
      refine ⟨?_, ?_, ?_, ?_⟩
      · cases d.identity <;> simp
      · cases d.low <;> cases p.low <;> simp
      · cases d.high <;> cases p.high <;> simp
      · cases d.pin <;> simp
    simp [with?, fits_join hp, hp, hself, hjoin]
  · simp at h

end Demand

/-! ### Demands of constraints -/

namespace ModuleSpec

def demand (m : ModuleSpec) : Demand where
  identity := m.guid.map Text.fold
  low := m.minVersion.map Version.keyOf
  high := m.maxVersion.map Version.keyOf
  pin := m.exactVersion.map Version.keyOf

/-- The identity that a specification gives; an empty one counts as none. -/
def givenGuid (m : ModuleSpec) : Option Text := m.guid.filter fun g => !g.isEmpty

def asked (m : ModuleSpec) : Demand := { m.demand with identity := m.givenGuid.map Text.fold }

/-- The higher of two lower bounds; the first one if they are equal. -/
def raised : Option Text → Option Text → Option Text :=
  Option.merge fun kept low =>
    if Version.less (Version.keyOf kept) (Version.keyOf low) then low else kept

/-- The lower of two upper bounds; the first one if they are equal. -/
def lowered : Option Text → Option Text → Option Text :=
  Option.merge fun kept high =>
    if Version.less (Version.keyOf high) (Version.keyOf kept) then high else kept

/-- The constraint `c` with all that a specification adds to it. -/
def merged (c spec : ModuleSpec) : ModuleSpec where
  name := c.name
  guid := c.guid.or spec.givenGuid
  minVersion := raised c.minVersion spec.minVersion
  maxVersion := lowered c.maxVersion spec.maxVersion
  exactVersion := c.exactVersion.or spec.exactVersion

theorem withGuid_eq_ok {c spec c' : ModuleSpec} :
    c.withGuid spec = .ok c' ↔
      Demand.clash (c.guid.map Text.fold) (spec.givenGuid.map Text.fold) = false ∧
        { c with guid := c.guid.or spec.givenGuid } = c' := by
  obtain ⟨name, guid, low, high, pin⟩ := c
  obtain ⟨name', guid', low', high', pin'⟩ := spec
  rcases guid' with _ | _ | ⟨d, g⟩ <;> rcases guid with _ | kept <;>
    simp [withGuid, givenGuid, Demand.clash, Text.sameName, Option.filter]
  split <;> simp_all

theorem withPin_eq_ok {c spec c' : ModuleSpec} :
    c.withPin spec = .ok c' ↔
      Demand.clash (c.exactVersion.map Version.keyOf) (spec.exactVersion.map Version.keyOf)
          = false ∧
        (spec.exactVersion.isSome && (c.minVersion.isSome || c.maxVersion.isSome)) = false ∧
        { c with exactVersion := c.exactVersion.or spec.exactVersion } = c' := by
  obtain ⟨name, guid, low, high, pin⟩ := c
  obtain ⟨name', guid', low', high', pin'⟩ := spec
  rcases pin' with _ | p
  · simp [withPin, Demand.clash]
  · cases low <;> cases high <;> rcases pin with _ | kept <;>
      simp [withPin, Demand.clash] <;> split <;> simp_all

theorem withMinimum_eq_ok {c spec c' : ModuleSpec} :
    c.withMinimum spec = .ok c' ↔
      (c.exactVersion.isSome && spec.minVersion.isSome) = false ∧
        { c with minVersion := raised c.minVersion spec.minVersion } = c' := by
  obtain ⟨name, guid, low, high, pin⟩ := c
  obtain ⟨name', guid', low', high', pin'⟩ := spec
  rcases low' with _ | l
  · simp [withMinimum, raised]
  · rcases pin with _ | p <;> rcases low with _ | kept <;>
      simp [withMinimum, raised]
    split <;> simp

theorem withMaximum_eq_ok {c spec c' : ModuleSpec} :
    c.withMaximum spec = .ok c' ↔
      (c.exactVersion.isSome && spec.maxVersion.isSome) = false ∧
        { c with maxVersion := lowered c.maxVersion spec.maxVersion } = c' := by
  obtain ⟨name, guid, low, high, pin⟩ := c
  obtain ⟨name', guid', low', high', pin'⟩ := spec
  rcases high' with _ | l
  · simp [withMaximum, lowered]
  · rcases pin with _ | p <;> rcases high with _ | kept <;>
      simp [withMaximum, lowered]
    split <;> simp

/-- What each of the four steps asks of the constraint is what fitting asks. -/
theorem fits_asked (c spec : ModuleSpec) :
    c.demand.fits spec.asked = true ↔
      Demand.clash (c.guid.map Text.fold) (spec.givenGuid.map Text.fold) = false ∧
      Demand.clash (c.exactVersion.map Version.keyOf) (spec.exactVersion.map Version.keyOf)
        = false ∧
      (spec.exactVersion.isSome && (c.minVersion.isSome || c.maxVersion.isSome)) = false ∧
      ((c.exactVersion.or spec.exactVersion).isSome && spec.minVersion.isSome) = false ∧
      ((c.exactVersion.or spec.exactVersion).isSome && spec.maxVersion.isSome) = false := by
  simp only [Demand.fits, Demand.isRange, demand, asked, Option.isSome_map, Option.isSome_or,
    Bool.and_eq_true, Bool.not_eq_true', and_assoc]
  grind

/-- A specification is merged exactly if its versions can be read and its demand fits what
    is merged so far. -/
theorem tighten_eq_ok {c spec c' : ModuleSpec} :
    c.tighten spec = .ok c' ↔
      spec.checkVersions = .ok () ∧ c.demand.fits spec.asked = true ∧ c.merged spec = c' := by
  unfold tighten
  rw [bind_eq_ok, fits_asked]
  simp only [bind_eq_ok, withGuid_eq_ok, withPin_eq_ok, withMinimum_eq_ok, withMaximum_eq_ok]
  constructor
  · rintro ⟨_, hcheck, _, ⟨hguid, rfl⟩, _, ⟨hpin, hrange, rfl⟩, _, ⟨hlow, rfl⟩, hhigh, rfl⟩
    exact ⟨hcheck, ⟨hguid, hpin, hrange, hlow, hhigh⟩, rfl⟩
  · rintro ⟨hcheck, ⟨hguid, hpin, hrange, hlow, hhigh⟩, rfl⟩
    exact ⟨(), hcheck, _, ⟨hguid, rfl⟩, _, ⟨hpin, hrange, rfl⟩, _, ⟨hlow, rfl⟩, hhigh, rfl⟩

theorem demand_merged (c spec : ModuleSpec) :
    (c.merged spec).demand = c.demand.join spec.asked := by
  have hlow : ∀ a b : Option Text, (raised a b).map Version.keyOf =
      Option.merge max (a.map Version.keyOf) (b.map Version.keyOf) := by
    intro a b
    cases a <;> cases b <;> simp only [raised, Option.merge, Option.map]
    rename_i v w
    by_cases h : Version.keyOf v < Version.keyOf w
    · simp [Version.less_iff_lt, h, max_eq_right h.le]
    · simp [Version.less_iff_lt, h, max_eq_left (not_lt.mp h)]
  have hhigh : ∀ a b : Option Text, (lowered a b).map Version.keyOf =
      Option.merge min (a.map Version.keyOf) (b.map Version.keyOf) := by
    intro a b
    cases a <;> cases b <;> simp only [lowered, Option.merge, Option.map]
    rename_i v w
    by_cases h : Version.keyOf w < Version.keyOf v
    · simp [Version.less_iff_lt, h, min_eq_right h.le]
    · simp [Version.less_iff_lt, h, min_eq_left (not_lt.mp h)]
  simp only [demand, merged, asked, Demand.join, Option.map_or, hlow, hhigh]

theorem demand_tighten (c spec : ModuleSpec) :
    (c.tighten spec).toOption.map demand =
      match spec.checkVersions with
      | .error _ => none
      | .ok _ => c.demand.with? spec.asked := by
  rcases htight : c.tighten spec with e | c'
  · rcases hcheck : spec.checkVersions with e' | _
    · rfl
    · by_cases hfits : c.demand.fits spec.asked = true
      · rw [tighten_eq_ok.mpr ⟨hcheck, hfits, rfl⟩] at htight
        cases htight
      · simp [Except.toOption, Demand.with?, hfits]
  · obtain ⟨hcheck, hfits, rfl⟩ := tighten_eq_ok.mp htight
    simp [Except.toOption, hcheck, Demand.with?, hfits, demand_merged]

/-- A merge that asks for nothing more leaves the constraint as it is spelled. -/
theorem merged_eq_self {c spec : ModuleSpec} (h : (c.merged spec).demand = c.demand) :
    c.merged spec = c := by
  have hkept : ∀ {f : Text → Text} (a b : Option Text),
      (a.or b).map f = a.map f → a.or b = a := by
    intro f a b hab
    cases a with
    | some v => rfl
    | none => simpa using hab
  have hkeptKey : ∀ a b : Option Text,
      (a.or b).map Version.keyOf = a.map Version.keyOf → a.or b = a := by
    intro a b hab
    cases a with
    | some v => rfl
    | none => simpa using hab
  have hraised : ∀ a b : Option Text,
      (raised a b).map Version.keyOf = a.map Version.keyOf → raised a b = a := by
    intro a b hab
    cases a <;> cases b <;> simp_all [raised, Option.merge, Version.less_iff_lt]
    intro hlt
    exact absurd hlt (by simp_all)
  have hlowered : ∀ a b : Option Text,
      (lowered a b).map Version.keyOf = a.map Version.keyOf → lowered a b = a := by
    intro a b hab
    cases a <;> cases b <;> simp_all [lowered, Option.merge, Version.less_iff_lt]
    intro hlt
    exact absurd hlt (by simp_all)
  simp only [demand, merged, Demand.mk.injEq] at h
  obtain ⟨hguid, hlow, hhigh, hpin⟩ := h
  simp only [merged, hkept _ _ hguid, hraised _ _ hlow, hlowered _ _ hhigh, hkeptKey _ _ hpin]

end ModuleSpec
end ScriptModule
