import Mathlib.Data.List.Nodup
import TrustStore.Certificate.Profile

/-!
# Key usages of profiles

A certificate declares its usages in two ways, by flags and by further identifiers, and its profile
shows them in two lists.  `Dealt` says how the further identifiers are divided between the lists,
one by one and in their order; each flag that is set is listed once, before them (`Keeps`).  No
further identifier stands for a purpose that has a flag, so the flags alone decide whether a
certificate that is no CA may authenticate clients, unless nothing is declared at all
(`allowsClientAuth_iff`).
-/

namespace TrustStore.Certificate

namespace KeyUsage

/-! ### Purposes with a flag -/

/-- The purpose is a flag of the extension. -/
def IsFlag (usage : KeyUsage) : Prop := usage ∈ flags.map Prod.fst

instance (usage : KeyUsage) : Decidable usage.IsFlag :=
  inferInstanceAs (Decidable (usage ∈ flags.map Prod.fst))

theorem nodup_flags : (flags.map Prod.fst).Nodup := by decide

theorem permitsClientAuth_iff {usage : KeyUsage} :
    usage.permitsClientAuth = true ↔ usage = any ∨ usage = clientAuth := by
  rw [permitsClientAuth, Bool.or_eq_true, beq_iff_eq, beq_iff_eq, or_comm]

/-- The table of further identifiers has no purpose with a flag. -/
theorem not_isFlag_of_ofObjectId? {text : String} {usage : KeyUsage}
    (h : ofObjectId? text = some usage) : ¬ usage.IsFlag := by
  obtain ⟨before, after, htable, -⟩ := List.lookup_eq_some_iff.mp h
  have hmem : (text, usage) ∈ before ++ (text, usage) :: after :=
    List.mem_append_right before List.mem_cons_self
  rw [← htable] at hmem
  simp only [List.mem_cons, List.not_mem_nil, or_false, Prod.mk.injEq] at hmem
  rcases hmem with ⟨-, rfl⟩ | ⟨-, rfl⟩ | ⟨-, rfl⟩ | ⟨-, rfl⟩ | ⟨-, rfl⟩ | ⟨-, rfl⟩ | ⟨-, rfl⟩ <;>
    decide

end KeyUsage

/-! ### Further identifiers -/

/-- Identifiers are dealt out to a list of purposes and a list of texts: one after the other, each
to the purpose that it stands for, or else as its text. -/
inductive Dealt : List ObjectId → List KeyUsage → List String → Prop where
  | nil : Dealt [] [] []
  | purpose {id : ObjectId} {ids : List ObjectId} {usage : KeyUsage} {purposes : List KeyUsage}
      {texts : List String} (h : KeyUsage.ofObjectId? id.text = some usage)
      (rest : Dealt ids purposes texts) : Dealt (id :: ids) (usage :: purposes) texts
  | text {id : ObjectId} {ids : List ObjectId} {purposes : List KeyUsage} {texts : List String}
      (h : KeyUsage.ofObjectId? id.text = none)
      (rest : Dealt ids purposes texts) : Dealt (id :: ids) purposes (id.text :: texts)

namespace Dealt

variable {ids : List ObjectId} {purposes : List KeyUsage} {texts : List String}

theorem length_eq (h : Dealt ids purposes texts) :
    purposes.length + texts.length = ids.length := by
  induction h with
  | nil => rfl
  | purpose _ _ ih => rw [List.length_cons, List.length_cons, ← ih, Nat.add_right_comm]
  | text _ _ ih => rw [List.length_cons, List.length_cons, ← ih, Nat.add_assoc]

theorem not_isFlag (h : Dealt ids purposes texts) : ∀ usage ∈ purposes, ¬ usage.IsFlag := by
  induction h with
  | nil => exact fun _ hmem => absurd hmem List.not_mem_nil
  | purpose hid _ ih =>
    exact List.forall_mem_cons.mpr ⟨KeyUsage.not_isFlag_of_ofObjectId? hid, ih⟩
  | text _ _ ih => exact ih

theorem eq_nil_iff (h : Dealt ids purposes texts) : ids = [] ↔ purposes = [] ∧ texts = [] := by
  rw [← List.length_eq_zero_iff, ← h.length_eq, Nat.add_eq_zero_iff, List.length_eq_zero_iff,
    List.length_eq_zero_iff]

end Dealt

namespace KeyUsages

/-- Each identifier that is no flag is known by its purpose or kept as text. -/
theorem dealt_others (usages : KeyUsages) :
    Dealt usages.others (usages.others.filterMap fun id => KeyUsage.ofObjectId? id.text)
      usages.unknown := by
  rw [unknown]
  induction usages.others with
  | nil => exact .nil
  | cons id ids ih =>
    rw [List.map_cons]
    rcases hid : KeyUsage.ofObjectId? id.text with - | usage
    · have hfilter := List.filterMap_cons_none
        (f := fun id : ObjectId => KeyUsage.ofObjectId? id.text) (l := ids) hid
      rw [hfilter, List.filter_cons_of_pos (by rw [hid]; rfl)]
      exact .text hid ih
    · have hfilter := List.filterMap_cons_some
        (f := fun id : ObjectId => KeyUsage.ofObjectId? id.text) (l := ids) hid
      rw [hfilter, List.filter_cons_of_neg (by rw [hid]; exact nofun)]
      exact .purpose hid ih

/-- No flag is set, and there is no further identifier. -/
def IsEmpty (usages : KeyUsages) : Prop :=
  (∀ usage : KeyUsage, usage.IsFlag → usages.isSet usage = false) ∧ usages.others = []

/-! ### Identifiers as they are read -/

theorem mem_distinct {ids : List ObjectId} {id : ObjectId} :
    id ∈ ofIds.distinct ids ↔ id ∈ ids := by
  induction ids with
  | nil => exact Iff.rfl
  | cons first rest ih =>
    rw [ofIds.distinct, List.mem_cons, List.mem_cons, List.mem_filter, ih, bne_iff_ne]
    constructor
    · rintro (rfl | ⟨hmem, -⟩)
      · exact Or.inl rfl
      · exact Or.inr hmem
    · rintro (rfl | hmem)
      · exact Or.inl rfl
      · rcases eq_or_ne id first with heq | hne
        · exact Or.inl heq
        · exact Or.inr ⟨hmem, hne⟩

/-- A flag is set exactly by its identifier. -/
theorem isSet_ofIds {ids : List ObjectId} {usage : KeyUsage} :
    (ofIds ids).isSet usage = true ↔ ∃ id ∈ ids, (usage, id) ∈ KeyUsage.flags := by
  unfold ofIds
  dsimp only
  rw [List.any_eq_true]
  constructor
  · rintro ⟨⟨flag, id⟩, hflag, h⟩
    obtain ⟨heq, hmem⟩ := (Bool.and_eq_true _ _).mp h
    obtain rfl := eq_of_beq heq
    exact ⟨id, List.contains_iff_mem.mp hmem, hflag⟩
  · rintro ⟨id, hmem, hflag⟩
    exact ⟨(usage, id), hflag,
      (Bool.and_eq_true _ _).mpr ⟨beq_self_eq_true usage, List.contains_iff_mem.mpr hmem⟩⟩

theorem isEmpty_ofIds {ids : List ObjectId} : (ofIds ids).IsEmpty ↔ ids = [] := by
  constructor
  · rintro ⟨hflags, hothers⟩
    refine List.eq_nil_iff_forall_not_mem.mpr fun id hid => ?_
    -- an identifier that is no further one is that of a flag
    have hkept := List.filter_eq_nil_iff.mp hothers id (mem_distinct.mpr hid)
    rw [Bool.not_eq_true, Bool.not_eq_false', List.any_eq_true] at hkept
    obtain ⟨⟨flag, id'⟩, hflag, heq⟩ := hkept
    obtain rfl := eq_of_beq heq
    have hset := hflags flag (List.mem_map_of_mem hflag)
    rw [isSet_ofIds.mpr ⟨_, hid, hflag⟩] at hset
    cases hset
  · rintro rfl
    refine ⟨fun usage _ => Bool.eq_false_iff.mpr fun hset => ?_, rfl⟩
    obtain ⟨id, hid, -⟩ := isSet_ofIds.mp hset
    exact absurd hid List.not_mem_nil

end KeyUsages

/-- The usages of a certificate: none without the extension, else those of its identifiers. -/
theorem Extension.keyUsages?_eq_some_iff {extensions : List Extension} {usages : KeyUsages} :
    keyUsages? extensions = some usages ↔
      unique? extensions keyUsagesId = some none ∧ usages = .none ∨
      ∃ extension ids, unique? extensions keyUsagesId = some (some extension) ∧
        keyUsageIds? extension.value = some ids ∧ usages = .ofIds ids := by
  rw [keyUsages?]
  rcases unique? extensions keyUsagesId with - | (- | extension)
  · simp
  · simp [eq_comm]
  · rcases hids : keyUsageIds? extension.value with - | ids <;> simp [hids, eq_comm]

/-! ### Profiles -/

namespace Profile

/-- The profile of a certificate with the given usages. -/
def ofUsages (subject : String) (isCa : Bool) (usages : KeyUsages) : Profile :=
  ⟨subject, isCa, usages.known, usages.unknown⟩

/-- A profile is read exactly if both extensions are. -/
theorem ofBody?_eq_some_iff {body : Body} {p : Profile} :
    ofBody? body = some p ↔ ∃ isCa usages, Extension.isCa? body.extensions = some isCa ∧
      Extension.keyUsages? body.extensions = some usages ∧
      p = ofUsages body.subject.text isCa usages := by
  simp only [ofBody?, Option.bind_eq_bind, Option.bind_eq_some_iff, Option.pure_def,
    Option.some.injEq]
  constructor
  · rintro ⟨isCa, hca, usages, husages, rfl⟩
    exact ⟨isCa, usages, hca, husages, rfl⟩
  · rintro ⟨isCa, usages, hca, husages, rfl⟩
    exact ⟨isCa, hca, usages, husages, rfl⟩

/-- The profile keeps the usages: each flag that is set and each further identifier is listed once,
the identifiers in their order, and nothing else is. -/
structure Keeps (usages : KeyUsages) (p : Profile) : Prop where
  listed : ∃ set purposes, p.usages = set ++ purposes ∧
    set.Sublist (KeyUsage.flags.map Prod.fst) ∧
    (∀ usage, usage ∈ set ↔ usage.IsFlag ∧ usages.isSet usage = true) ∧
    Dealt usages.others purposes p.unknownUsages
  flag (usage : KeyUsage) (h : usage.IsFlag) :
    p.usages.count usage = if usages.isSet usage then 1 else 0
  length : p.usages.length + p.unknownUsages.length
    = (KeyUsage.flags.countP fun flag => usages.isSet flag.1) + usages.others.length

/-- A profile keeps all its usages, in their order. -/
theorem keeps_ofUsages (subject : String) (isCa : Bool) (usages : KeyUsages) :
    Keeps usages (ofUsages subject isCa usages) where
  listed := by
    refine ⟨_, _, rfl, List.filter_sublist, fun usage => ?_, usages.dealt_others⟩
    exact List.mem_filter
  -- a flag comes from its own list only, since other identifiers deal out none
  flag usage h := by
    have hothers : usage ∉ usages.others.filterMap fun id => KeyUsage.ofObjectId? id.text :=
      fun hmem => usages.dealt_others.not_isFlag usage hmem h
    show usages.known.count usage = _
    rw [KeyUsages.known, List.count_append, List.count_eq_zero_of_not_mem hothers, Nat.add_zero]
    rcases hset : usages.isSet usage with - | -
    · rw [List.count_eq_zero_of_not_mem fun hmem => ?_]
      · rfl
      · rw [(List.mem_filter.mp hmem).2] at hset
        cases hset
    · rw [List.count_filter hset, List.count_eq_one_of_mem KeyUsage.nodup_flags h]
      rfl
  length := by
    show usages.known.length + usages.unknown.length = _
    rw [KeyUsages.known, List.length_append, Nat.add_assoc, usages.dealt_others.length_eq,
      ← List.countP_eq_length_filter, List.countP_map]
    rfl

section Keeps

variable {usages : KeyUsages} {p : Profile} (h : Keeps usages p)

include h

theorem Keeps.mem_iff {usage : KeyUsage} (hflag : usage.IsFlag) :
    usage ∈ p.usages ↔ usages.isSet usage = true := by
  rw [← List.count_pos_iff, h.flag usage hflag]
  rcases usages.isSet usage with - | - <;> simp

/-- No usage is declared exactly if the extension is empty. -/
theorem Keeps.declaresUsages_eq_false_iff : p.declaresUsages = false ↔ usages.IsEmpty := by
  rw [declaresUsages, Bool.or_eq_false_iff, Bool.not_eq_false', Bool.not_eq_false',
    List.isEmpty_iff, List.isEmpty_iff]
  obtain ⟨set, purposes, heq, -, hset, hdealt⟩ := h.listed
  constructor
  · rintro ⟨husages, htexts⟩
    rw [husages] at heq
    obtain ⟨rfl, hpurposes⟩ := List.append_eq_nil_iff.mp heq.symm
    refine ⟨fun usage hflag => Bool.eq_false_iff.mpr fun hon => ?_,
      hdealt.eq_nil_iff.mpr ⟨hpurposes, htexts⟩⟩
    exact absurd ((hset usage).mpr ⟨hflag, hon⟩) List.not_mem_nil
  · rintro ⟨hflags, hothers⟩
    have hnone : set = [] := List.eq_nil_iff_forall_not_mem.mpr fun usage hmem => by
      obtain ⟨hflag, hon⟩ := (hset usage).mp hmem
      rw [hflags usage hflag] at hon
      cases hon
    obtain ⟨hpurposes, htexts⟩ := hdealt.eq_nil_iff.mp hothers
    exact ⟨by rw [heq, hnone, hpurposes]; rfl, htexts⟩

/-- Who may authenticate clients: a CA, a certificate that declares nothing, and one with one of two
flags. -/
theorem Keeps.allowsClientAuth_iff : p.allowsClientAuth = true ↔
    p.isCa = true ∨ usages.IsEmpty ∨ usages.isSet .any = true ∨
      usages.isSet .clientAuth = true := by
  have hflags : p.usages.any KeyUsage.permitsClientAuth = true ↔
      usages.isSet .any = true ∨ usages.isSet .clientAuth = true := by
    rw [← h.mem_iff (by decide), ← h.mem_iff (by decide), List.any_eq_true]
    constructor
    · rintro ⟨usage, hmem, hpermits⟩
      rcases KeyUsage.permitsClientAuth_iff.mp hpermits with rfl | rfl
      · exact Or.inl hmem
      · exact Or.inr hmem
    · rintro (hmem | hmem)
      · exact ⟨_, hmem, rfl⟩
      · exact ⟨_, hmem, rfl⟩
  rw [allowsClientAuth, Bool.or_eq_true, Bool.or_eq_true, Bool.not_eq_true',
    h.declaresUsages_eq_false_iff, hflags, or_assoc]

end Keeps

/-- Of the identifiers in the extension only two make a certificate fit for clients. -/
theorem allowsClientAuth_ofIds_iff {subject : String} {isCa : Bool} {ids : List ObjectId} :
    (ofUsages subject isCa (.ofIds ids)).allowsClientAuth = true ↔ isCa = true ∨ ids = [] ∨
      ∃ usage, usage.permitsClientAuth = true ∧ ∃ id ∈ ids, (usage, id) ∈ KeyUsage.flags := by
  rw [(keeps_ofUsages subject isCa _).allowsClientAuth_iff, KeyUsages.isEmpty_ofIds,
    KeyUsages.isSet_ofIds, KeyUsages.isSet_ofIds]
  refine or_congr_right (or_congr_right ?_)
  simp only [KeyUsage.permitsClientAuth_iff, or_and_right, exists_or, exists_eq_left]

/-- Whatever a certificate declares is kept in its profile, once and in its order.  A certificate
may authenticate clients if it is a CA, declares nothing, or has one of two flags; further
identifiers never make it fit for that, and with one of them nothing but these flags counts.  The
profile of a certificate is that of its extensions. -/
theorem key_usages_are_kept :
    (∀ subject isCa usages, Keeps usages (ofUsages subject isCa usages) ∧
      ((ofUsages subject isCa usages).allowsClientAuth = true ↔ isCa = true ∨ usages.IsEmpty ∨
        usages.isSet .any = true ∨ usages.isSet .clientAuth = true)) ∧
    (∀ subject isSet others, others ≠ [] →
      ((ofUsages subject false ⟨isSet, others⟩).allowsClientAuth = true ↔
        isSet .any = true ∨ isSet .clientAuth = true)) ∧
    (∀ subject isSet others more, List.Sublist others more →
      (ofUsages subject false ⟨isSet, more⟩).allowsClientAuth = true →
      (ofUsages subject false ⟨isSet, others⟩).allowsClientAuth = true) ∧
    (∀ subject isCa ids,
      (ofUsages subject isCa (.ofIds ids)).allowsClientAuth = true ↔ isCa = true ∨ ids = [] ∨
        ∃ usage, usage.permitsClientAuth = true ∧ ∃ id ∈ ids, (usage, id) ∈ KeyUsage.flags) ∧
    ∀ body p, ofBody? body = some p ↔
      ∃ isCa usages, Extension.isCa? body.extensions = some isCa ∧
        Extension.keyUsages? body.extensions = some usages ∧
        p = ofUsages body.subject.text isCa usages := by
  have hallows (subject : String) (isCa : Bool) (usages : KeyUsages) :=
    (keeps_ofUsages subject isCa usages).allowsClientAuth_iff
  refine ⟨fun subject isCa usages => ⟨keeps_ofUsages subject isCa usages, hallows _ _ _⟩,
    fun subject isSet others hne => ?_, fun subject isSet others more hsub h => ?_,
    fun _ _ _ => allowsClientAuth_ofIds_iff, fun _ _ => ofBody?_eq_some_iff⟩
  · rw [hallows]
    show false = true ∨ _ ↔ _
    rw [or_iff_right Bool.false_ne_true, or_iff_right fun hempty => hne hempty.2]
  · rw [hallows] at h ⊢
    -- where nothing is declared with more identifiers, there is nothing without them
    refine h.imp_right (Or.imp_left fun hempty => ⟨hempty.1, ?_⟩)
    exact List.sublist_nil.mp (hempty.2 ▸ hsub)

/-- An identifier with the text of the flag for clients, written with a byte too many. -/
def lookalike : ObjectId := KeyUsage.purposeId 0x80 ++ [2]

theorem lookalike_is_refused : lookalike.text = (KeyUsage.purposeId 2).text ∧
    (∃ p, ofBody? ⟨[], [⟨Extension.keyUsagesId, 0x30 :: 11 :: 6 :: 9 :: lookalike⟩]⟩ = some p ∧
      p.unknownUsages = ["1.3.6.1.5.5.7.3.2"]) ∧
    (ofUsages "" false ⟨fun _ => false, [lookalike]⟩).allowsClientAuth = false := by
  obtain ⟨-, hothers, -, -, hbody⟩ := key_usages_are_kept
  refine ⟨by decide +kernel, ?_, ?_⟩
  · refine ⟨_, (hbody _ _).mpr ⟨false, .ofIds [lookalike], by decide +kernel, ?_, rfl⟩,
      by decide +kernel⟩
    exact Extension.keyUsages?_eq_some_iff.mpr
      (Or.inr ⟨⟨Extension.keyUsagesId, 0x30 :: 11 :: 6 :: 9 :: lookalike⟩, [lookalike],
        by decide +kernel, by decide +kernel, rfl⟩)
  · refine Bool.eq_false_iff.mpr fun h => ?_
    rcases (hothers "" (fun _ => false) [lookalike] (List.cons_ne_nil _ _)).mp h with hset | hset
    · cases hset
    · cases hset

end Profile

end TrustStore.Certificate
