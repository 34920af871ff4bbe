/-
Which versions are equal, and how the versions of one release come one after
the other.

Of one release there are development releases, pre-releases, the final release
and post-releases, in this order.  Pre-releases come by phase and number, and
around each of them its own development releases and post-releases.
-/
import Mathlib.Data.List.DropRight
import Mathlib.Tactic.MkIffOfInductiveProp
import StubSync.Proofs.Version.Order

namespace StubSync

namespace Version

section Releases

/-- The segments of a release without the zeros that end it. -/
def significant (release : List Nat) : List Nat :=
  release.rdropWhile (· == 0)

/-- The first segment that differs is less; missing segments are zero. -/
def ReleaseBelow (left right : List Nat) : Prop :=
  ∃ place, (∀ earlier < place, left.getD earlier 0 = right.getD earlier 0) ∧
    left.getD place 0 < right.getD place 0

theorem significant_cons (n : Nat) (segments : List Nat) :
    significant (n :: segments) =
      if n = 0 ∧ significant segments = [] then [] else n :: significant segments := by
  unfold significant List.rdropWhile
  rw [List.reverse_cons, List.dropWhile_append]
  cases hrest : segments.reverse.dropWhile (· == 0) with
  | nil => cases n <;> simp
  | cons last others => simp

theorem significant_eq_nil_iff {release : List Nat} :
    significant release = [] ↔ ∀ n ∈ release, n = 0 := by
  simp [significant]

theorem significant_cons_eq_iff {n : Nat} {segments others : List Nat} :
    significant (n :: segments) = significant others ↔
      n = others.headD 0 ∧ significant segments = significant others.tail := by
  cases others with
  | nil =>
      rw [significant_cons]
      by_cases hzero : n = 0 ∧ significant segments = [] <;> simp_all [significant]
  | cons m others =>
      rw [significant_cons, significant_cons, List.headD_cons, List.tail_cons]
      grind

theorem releaseBelow_iff {left right : List Nat} :
    ReleaseBelow left right ↔ left.headD 0 < right.headD 0 ∨
      left.headD 0 = right.headD 0 ∧ ReleaseBelow left.tail right.tail := by
  constructor
  · rintro ⟨place, hequal, hless⟩
    cases place with
    | zero =>
        rw [getD_zero, getD_zero] at hless
        exact Or.inl hless
    | succ place =>
        have hhead := hequal 0 (Nat.succ_pos place)
        rw [getD_zero, getD_zero] at hhead
        rw [getD_succ, getD_succ] at hless
        refine Or.inr ⟨hhead, place, ?_, hless⟩
        intro earlier hearlier
        have htail := hequal (earlier + 1) (Nat.succ_lt_succ hearlier)
        rwa [getD_succ, getD_succ] at htail
  · rintro (hless | ⟨hhead, place, hequal, hless⟩)
    · refine ⟨0, nofun, ?_⟩
      rwa [getD_zero, getD_zero]
    · refine ⟨place + 1, ?_, ?_⟩
      · intro earlier hearlier
        cases earlier with
        | zero => rwa [getD_zero, getD_zero]
        | succ earlier =>
            rw [getD_succ, getD_succ]
            exact hequal earlier (Nat.lt_of_succ_lt_succ hearlier)
      · rwa [getD_succ, getD_succ]

theorem compareSegments_eq_eq_iff {left right : List Nat} :
    compareSegments left right = .eq ↔ significant left = significant right := by
  induction left generalizing right with
  | nil =>
      have hnil : significant [] = [] := rfl
      rw [compareSegments, hnil, eq_comm (a := []), significant_eq_nil_iff]
      simp
  | cons n segments ih =>
      rw [compareSegments, Ordering.then_eq_eq, Nat.compare_eq_eq, ih, significant_cons_eq_iff]

theorem compareSegments_eq_lt_iff {left right : List Nat} :
    compareSegments left right = .lt ↔ ReleaseBelow left right := by
  induction left generalizing right with
  | nil =>
      induction right with
      | nil => simp [compareSegments, ReleaseBelow]
      | cons m others ih =>
          rw [compareSegments_eq, releaseBelow_iff, Ordering.then_eq_lt, Nat.compare_eq_lt,
            Nat.compare_eq_eq, List.tail_nil, List.tail_cons, ih]
  | cons n segments ih =>
      rw [compareSegments_eq, releaseBelow_iff, Ordering.then_eq_lt, Nat.compare_eq_lt,
        Nat.compare_eq_eq, List.tail_cons, ih]

end Releases

section Stages

/-- What a version is of its release. -/
inductive Stage where
  | development
  | preRelease
  | final
  | postRelease
deriving Repr, DecidableEq

/-- The order in which the stages of a release come. -/
def Stage.rank : Stage → Nat
  | .development => 0
  | .preRelease => 1
  | .final => 2
  | .postRelease => 3

/-- A development release of a pre-release or of a post-release belongs to
its stage. -/
def stage (version : Version) : Stage :=
  match version.pre, version.post, version.dev with
  | some _, _, _ => .preRelease
  | none, some _, _ => .postRelease
  | none, none, some _ => .development
  | none, none, none => .final

/-- Pre-releases come by their phases, and within a phase by their numbers. -/
def PhaseBelow (left right : Phase × Nat) : Prop :=
  Phase.rank left.1 < Phase.rank right.1 ∨ left.1 = right.1 ∧ left.2 < right.2

/-- Post-releases come behind what they follow, by their numbers. -/
@[mk_iff]
inductive PostBelow : Option Nat → Option Nat → Prop
  | first (n : Nat) : PostBelow none (some n)
  | later {m n : Nat} (hless : m < n) : PostBelow (some m) (some n)

/-- Development releases come before what they lead to, by their numbers. -/
@[mk_iff]
inductive DevBelow : Option Nat → Option Nat → Prop
  | last (m : Nat) : DevBelow (some m) none
  | later {m n : Nat} (hless : m < n) : DevBelow (some m) (some n)

/-- How versions of one release come one after the other. -/
@[mk_iff]
inductive Precedes (left right : Version) : Prop
  | stage (hrank : left.stage.rank < right.stage.rank)
  | phase {p q : Phase × Nat} (hleft : left.pre = some p) (hright : right.pre = some q)
      (hbelow : PhaseBelow p q)
  | post (hstage : left.stage = right.stage) (hpre : left.pre = right.pre)
      (hbelow : PostBelow left.post right.post)
  | dev (hstage : left.stage = right.stage) (hpre : left.pre = right.pre)
      (hpost : left.post = right.post) (hbelow : DevBelow left.dev right.dev)

variable {u v w : Version}

section Keys

/-- The keys of `suffixKey`, part by part. -/
def stageKey (version : Version) : Nat × Nat :=
  match version.pre, version.post, version.dev with
  | some (phase, n), _, _ => (Phase.rank phase, n)
  | none, none, some _ => (0, 0)
  | none, _, _ => (4, 0)

def postKey : Option Nat → Nat
  | none => 0
  | some n => n + 1

def devKey : Option Nat → Nat × Nat
  | some n => (0, n)
  | none => (1, 0)

theorem suffixKey_eq (version : Version) :
    version.suffixKey = [version.stageKey.1, version.stageKey.2, postKey version.post,
      (devKey version.dev).1, (devKey version.dev).2] := by
  obtain ⟨_, _, pre, post, dev, _⟩ := version
  cases pre <;> cases post <;> cases dev <;> rfl

/-- Pairs of numbers are compared from the front. -/
def PairBelow (left right : Nat × Nat) : Prop :=
  left.1 < right.1 ∨ left.1 = right.1 ∧ left.2 < right.2

theorem postKey_lt_iff {m n : Option Nat} : postKey m < postKey n ↔ PostBelow m n := by
  cases m <;> cases n <;> simp [postKey, postBelow_iff]

theorem postKey_inj {m n : Option Nat} : postKey m = postKey n ↔ m = n := by
  cases m <;> cases n <;> simp [postKey]

theorem devKey_below_iff {m n : Option Nat} :
    PairBelow (devKey m) (devKey n) ↔ DevBelow m n := by
  cases m <;> cases n <;> simp [devKey, PairBelow, devBelow_iff]

theorem devKey_inj {m n : Option Nat} : devKey m = devKey n ↔ m = n := by
  cases m <;> cases n <;> simp [devKey]

theorem rank_bounds (phase : Phase) : 0 < Phase.rank phase ∧ Phase.rank phase < 4 := by
  cases phase <;> decide

theorem rank_inj {left right : Phase} : Phase.rank left = Phase.rank right ↔ left = right := by
  cases left <;> cases right <;> decide

theorem compareSegments_cons (m n : Nat) (segments others : List Nat) :
    compareSegments (m :: segments) (n :: others) =
      (compare m n).then (compareSegments segments others) :=
  rfl

theorem compareSegments_suffixKey_eq_lt_iff :
    compareSegments u.suffixKey v.suffixKey = .lt ↔
      PairBelow u.stageKey v.stageKey ∨ u.stageKey = v.stageKey ∧
        (postKey u.post < postKey v.post ∨ postKey u.post = postKey v.post ∧
          PairBelow (devKey u.dev) (devKey v.dev)) := by
  have hnil : compareSegments [] [] ≠ .lt := nofun
  rw [suffixKey_eq, suffixKey_eq]
  simp only [compareSegments_cons, Ordering.then_eq_lt, Nat.compare_eq_lt, Nat.compare_eq_eq,
    PairBelow, Prod.ext_iff, hnil, and_false, or_false]
  tauto

theorem compareSegments_suffixKey_eq_eq_iff :
    compareSegments u.suffixKey v.suffixKey = .eq ↔
      u.stageKey = v.stageKey ∧ u.post = v.post ∧ u.dev = v.dev := by
  have hnil : compareSegments [] [] = .eq := rfl
  rw [suffixKey_eq, suffixKey_eq, ← postKey_inj, ← devKey_inj]
  simp only [compareSegments_cons, Ordering.then_eq_eq, Nat.compare_eq_eq, Prod.ext_iff, hnil,
    and_true, and_assoc]

theorem stage_of_pre {p : Phase × Nat} (hpre : v.pre = some p) :
    v.stage = .preRelease ∧ v.stageKey = (Phase.rank p.1, p.2) := by
  simp [stage, stageKey, hpre]

theorem stage_of_no_pre (hpre : v.pre = none) :
    v.stage = .development ∧ v.stageKey = (0, 0) ∨
      (v.stage = .final ∨ v.stage = .postRelease) ∧ v.stageKey = (4, 0) := by
  unfold stage stageKey
  rw [hpre]
  cases v.post <;> cases v.dev <;> simp

theorem stageKey_ne {p : Phase × Nat} (hu : u.pre = some p) (hv : v.pre = none) :
    u.stageKey ≠ v.stageKey := by
  have hbounds := rank_bounds p.1
  rw [(stage_of_pre hu).2]
  rcases stage_of_no_pre hv with ⟨_, hkey⟩ | ⟨_, hkey⟩ <;> rw [hkey, Ne, Prod.mk.injEq] <;> omega

theorem stageKey_inj {p q : Phase × Nat} (hu : u.pre = some p) (hv : v.pre = some q) :
    u.stageKey = v.stageKey ↔ p = q := by
  rw [(stage_of_pre hu).2, (stage_of_pre hv).2, Prod.mk.injEq, rank_inj, Prod.ext_iff]

/-- Where the other parts are alike, the key of the stage tells no more than the
part of the pre-release. -/
theorem stageKey_eq_iff (hpost : u.post = v.post) (hdev : u.dev.isSome = v.dev.isSome) :
    u.stageKey = v.stageKey ↔ u.pre = v.pre := by
  cases hu : u.pre with
  | none =>
      cases hv : v.pre with
      | none =>
          cases hpostV : v.post <;> cases hdevU : u.dev <;> cases hdevV : v.dev <;>
            simp_all [stageKey]
      | some q => simp [(stageKey_ne hv hu).symm]
  | some p =>
      cases hv : v.pre with
      | none => simp [stageKey_ne hu hv]
      | some q => rw [stageKey_inj hu hv, Option.some_inj]

/-- The rules of precedence are those of the keys. -/
theorem precedes_iff_keys :
    Precedes u v ↔ compareSegments u.suffixKey v.suffixKey = .lt := by
  rw [compareSegments_suffixKey_eq_lt_iff, postKey_lt_iff, postKey_inj, devKey_below_iff,
    precedes_iff]
  cases hu : u.pre with
  | none =>
      cases hv : v.pre with
      | none =>
          cases hpostU : u.post <;> cases hdevU : u.dev <;> cases hpostV : v.post <;>
            cases hdevV : v.dev <;>
            simp [stageKey, stage, Stage.rank, PairBelow, postBelow_iff, devBelow_iff, *]
      | some q =>
          have hbounds := rank_bounds q.1
          obtain ⟨hstageV, hkeyV⟩ := stage_of_pre hv
          rcases stage_of_no_pre hu with ⟨hstage, hkey⟩ | ⟨hstage | hstage, hkey⟩ <;>
            simp [hstageV, hkeyV, hstage, hkey, Stage.rank, PairBelow] <;> omega
  | some p =>
      cases hv : v.pre with
      | none =>
          have hbounds := rank_bounds p.1
          obtain ⟨hstageU, hkeyU⟩ := stage_of_pre hu
          rcases stage_of_no_pre hv with ⟨hstage, hkey⟩ | ⟨hstage | hstage, hkey⟩ <;>
            simp [hstageU, hkeyU, hstage, hkey, Stage.rank, PairBelow] <;> omega
      | some q =>
          have hsame := stageKey_inj hu hv
          obtain ⟨hstageU, hkeyU⟩ := stage_of_pre hu
          obtain ⟨hstageV, hkeyV⟩ := stage_of_pre hv
          have hbelow : PairBelow u.stageKey v.stageKey ↔ PhaseBelow p q := by
            rw [hkeyU, hkeyV, PairBelow, PhaseBelow, rank_inj]
          simp [hstageU, hstageV, hbelow, hsame, and_or_left]

end Keys

/-- The versions have one epoch and one release, up to zeros at its end. -/
structure SameRelease (u v : Version) : Prop where
  epoch : u.epoch = v.epoch
  release : significant u.release = significant v.release

theorem SameRelease.symm (hsame : SameRelease u v) : SameRelease v u :=
  ⟨hsame.epoch.symm, hsame.release.symm⟩

theorem SameRelease.trans (huv : SameRelease u v) (hvw : SameRelease v w) : SameRelease u w :=
  ⟨huv.epoch.trans hvw.epoch, huv.release.trans hvw.release⟩

/-- The versions have the same parts; local labels do not count. -/
structure Same (u v : Version) : Prop extends SameRelease u v where
  pre : u.pre = v.pre
  post : u.post = v.post
  dev : u.dev = v.dev

/-- The version is the development release of a number on the way to another
version. -/
structure LeadsTo (u : Version) (number : Nat) (w : Version) : Prop extends SameRelease u w where
  pre : u.pre = w.pre
  post : u.post = w.post
  dev : u.dev = some number
  final : w.dev = none

theorem cmp_eq_eq_iff : cmp u v = .eq ↔ Same u v := by
  rw [cmp, Ordering.then_eq_eq, Ordering.then_eq_eq, Nat.compare_eq_eq, compareSegments_eq_eq_iff,
    compareSegments_suffixKey_eq_eq_iff]
  constructor
  · rintro ⟨hepoch, hrelease, hkey, hpost, hdev⟩
    exact ⟨⟨hepoch, hrelease⟩, (stageKey_eq_iff hpost (congrArg _ hdev)).1 hkey, hpost, hdev⟩
  · rintro ⟨⟨hepoch, hrelease⟩, hpre, hpost, hdev⟩
    exact ⟨hepoch, hrelease, (stageKey_eq_iff hpost (congrArg _ hdev)).2 hpre, hpost, hdev⟩

/-- One version is below another by its epoch, by its release, or by what
follows the release. -/
theorem lt_iff : u < v ↔ u.epoch < v.epoch ∨ u.epoch = v.epoch ∧
    (ReleaseBelow u.release v.release ∨
      significant u.release = significant v.release ∧ Precedes u v) := by
  change cmp u v = .lt ↔ _
  rw [cmp, Ordering.then_eq_lt, Ordering.then_eq_lt, Nat.compare_eq_lt, Nat.compare_eq_eq,
    compareSegments_eq_lt_iff, compareSegments_eq_eq_iff, precedes_iff_keys]

theorem SameRelease.lt_iff (hsame : SameRelease u v) : u < v ↔ Precedes u v := by
  have hnot : ¬ ReleaseBelow u.release v.release := by
    rw [← compareSegments_eq_lt_iff, compareSegments_eq_eq_iff.2 hsame.release]
    nofun
  rw [Version.lt_iff]
  simp [hsame.epoch, hsame.release, hnot]

/-- Between versions of one release there are only versions of this release. -/
theorem SameRelease.of_between (hsame : SameRelease u w) (huv : u < v) (hvw : v < w) :
    SameRelease v w := by
  have hepoch := hsame.epoch
  have hrelease := compareSegments_eq_eq_iff.2 hsame.release
  rcases release_of_lt huv with huv | ⟨huv, hup⟩
  · rcases release_of_lt hvw with hvw | ⟨hvw, _⟩ <;> omega
  · rw [Version.lt_iff] at hvw
    rcases hvw with hvw | ⟨hvw, hbelow | ⟨hsegments, _⟩⟩
    · omega
    · have hlt := Std.TransCmp.lt_of_isLE_of_lt hup (compareSegments_eq_lt_iff.2 hbelow)
      rw [hrelease] at hlt
      cases hlt
    · exact ⟨hvw, hsegments⟩

theorem LeadsTo.stageKey_eq {number : Nat} (hleads : LeadsTo u number w)
    (hstage : w.stage ≠ .final) : u.stageKey = w.stageKey := by
  have hfinal := hleads.final
  unfold stage at hstage
  unfold stageKey
  rw [hleads.pre, hleads.post]
  cases hpre : w.pre <;> cases hpost : w.post <;> simp_all

/-- Nothing but later development releases comes between a development release
and the pre-release or post-release that it leads to. -/
theorem LeadsTo.just_below {number : Nat} (hleads : LeadsTo u number w)
    (hstage : w.stage ≠ .final) :
    u < w ∧ (u < v → v < w → ∃ later, number < later ∧ LeadsTo v later w) := by
  have hkey := hleads.stageKey_eq hstage
  have hdev : DevBelow u.dev w.dev := by
    rw [hleads.dev, hleads.final]
    exact .last number
  have hlt : u < w := by
    rw [hleads.toSameRelease.lt_iff, precedes_iff_keys, compareSegments_suffixKey_eq_lt_iff, hkey,
      hleads.post, devKey_below_iff]
    exact Or.inr ⟨rfl, Or.inr ⟨rfl, hdev⟩⟩
  refine ⟨hlt, ?_⟩
  intro huv hvw
  have hrelease := hleads.toSameRelease.of_between huv hvw
  have hshared := hleads.toSameRelease.trans hrelease.symm
  rw [hshared.lt_iff, precedes_iff_keys, compareSegments_suffixKey_eq_lt_iff, hkey, hleads.post,
    hleads.dev] at huv
  rw [hrelease.lt_iff, precedes_iff_keys, compareSegments_suffixKey_eq_lt_iff,
    hleads.final] at hvw
  simp only [PairBelow, Prod.ext_iff] at huv hvw
  cases hlater : v.dev with
  | none =>
      rw [hlater] at hvw
      simp only [devKey] at hvw
      omega
  | some later =>
      rw [hlater] at huv
      simp only [devKey] at huv hvw
      have hpost : v.post = w.post := postKey_inj.1 (by omega)
      have hstages : v.stageKey = u.stageKey := by
        rw [hkey, Prod.ext_iff]
        omega
      have hpre : v.pre = u.pre := by
        apply (stageKey_eq_iff (hpost.trans hleads.post.symm) ?_).1 hstages
        rw [hlater, hleads.dev]
        rfl
      exact ⟨later, by omega, ⟨hrelease, hpre.trans hleads.pre, hpost, hlater, hleads.final⟩⟩

/-- Versions are ordered totally, up to zeros that end their releases and up to
local labels: by epoch, then by release, then by what follows the release. -/
theorem cmp_orders :
    (∀ v, cmp v v = .eq) ∧
      (∀ u v, cmp u v = (cmp v u).swap) ∧
      (∀ u v w : Version, u ≤ v → v ≤ w → u ≤ w) ∧
      (∀ u v : Version, u ≤ v ∨ v ≤ u) ∧
      (∀ u v, cmp u v = .eq ↔ Same u v) ∧
      (∀ u v, u < v ↔ u.epoch < v.epoch ∨ u.epoch = v.epoch ∧
        (ReleaseBelow u.release v.release ∨
          significant u.release = significant v.release ∧ Precedes u v)) ∧
      ∀ u v w number, LeadsTo u number w → w.stage ≠ .final →
        u < w ∧ (u < v → v < w → ∃ later, number < later ∧ LeadsTo v later w) := by
  refine ⟨?reflexive, ?oriented, ?transitive, ?total, ?same, ?below, ?between⟩
  case reflexive => exact fun v => Std.ReflCmp.compare_self
  case oriented => exact fun u v => Std.OrientedCmp.eq_swap
  case transitive => exact fun u v w => Version.le_trans
  case total =>
    intro u v
    by_cases hle : u ≤ v
    · exact Or.inl hle
    · exact Or.inr (Version.le_of_lt (Version.lt_of_not_le hle))
  case same => exact fun u v => cmp_eq_eq_iff
  case below => exact fun u v => Version.lt_iff
  case between => exact fun u v w number hleads hstage => hleads.just_below hstage

end Stages

namespace StagesExample

/-- A development release of the first alpha release, `1.0a1.dev0`. -/
def earlier : Version where
  epoch := 0
  release := [1, 0]
  pre := some (.alpha, 1)
  post := none
  dev := some 0
  localLabel := none

/-- A later one, with one zero more in its release, `1.0.0a1.dev3`. -/
def later : Version where
  epoch := 0
  release := [1, 0, 0]
  pre := some (.alpha, 1)
  post := none
  dev := some 3
  localLabel := none

/-- The alpha release itself, `1a1+deb`. -/
def alpha : Version where
  epoch := 0
  release := [1]
  pre := some (.alpha, 1)
  post := none
  dev := none
  localLabel := some "deb"

theorem later_between :
    LeadsTo earlier 0 alpha ∧ alpha.stage ≠ .final ∧ earlier < later ∧ later < alpha ∧
      earlier ≤ alpha ∧ ∃ number, 0 < number ∧ LeadsTo later number alpha := by
  have hleads : LeadsTo earlier 0 alpha := ⟨⟨rfl, by decide⟩, rfl, rfl, rfl, rfl⟩
  have hstage : alpha.stage ≠ .final := by decide
  have hfirst : earlier < later := by decide
  have hsecond : later < alpha := by decide
  obtain ⟨_, _, htransitive, _, _, _, hbetween⟩ := cmp_orders
  exact ⟨hleads, hstage, hfirst, hsecond,
    htransitive earlier later alpha (Version.le_of_lt hfirst) (Version.le_of_lt hsecond),
    (hbetween earlier later alpha 0 hleads hstage).2 hfirst hsecond⟩

end StagesExample

end Version

end StubSync
