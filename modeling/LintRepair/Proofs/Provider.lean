import LintRepair.Proofs.Document.Range
import LintRepair.Proofs.Edit.Overlap

/-!
# Usable fixes

What is shown of a provider is that it does not break down at a site whose range is addressable, and
that every fix it builds there can be applied.  A fix made of one edit only has to have an
addressable range, and what a repair offers is followed through its steps.
-/

namespace LintRepair

namespace Fix

theorem isUsable_ofEdit {document : Document} (title : Text) (diagnostic : Diagnostic) (e : Edit)
    (inside : document.containsRange e.range) : (ofEdit title diagnostic e).isUsable document := by
  rw [isUsable_iff]
  refine ⟨fun f member => ?_, List.pairwise_singleton _ _⟩
  obtain rfl := List.mem_singleton.mp member
  exact inside

@[simp]
theorem isUsable_onRequest (fix : Fix) (document : Document) :
    fix.onRequest.isUsable document = fix.isUsable document := rfl

end Fix

theorem Site.replaceLine_inj {site : Site} {title text other : Text} :
    site.replaceLine title text = site.replaceLine title other ↔ text = other := by
  simp [replaceLine, Fix.replaceLine, Fix.ofEdit, Fix.ofEdits, Edit.replace]

theorem Site.replaceRange_inj {site : Site} {title text other : Text} :
    site.replaceRange title text = site.replaceRange title other ↔ text = other := by
  simp [replaceRange, Fix.replaceRange, Fix.ofEdit, Fix.ofEdits, Edit.replace]

/-- A report of a rule about a range of a text, under the standard settings. -/
def Site.reporting (rule text : Text) (range : Range) : Site where
  diagnostic := ⟨rule, "message", range, .error, none, none, Diagnostic.lintSource⟩
  document := .ofText text
  settings := .standard

theorem Site.line_reporting (rule text : Text) (range : Range) :
    (Site.reporting rule text range).line = range.start.line := rfl

/-- A condition that holds of what is offered, if anything is. -/
def Fix.Offered (condition : Fix → Prop) (offer : Option Fix) : Prop := ∀ fix ∈ offer, condition fix

namespace Fix.Offered

variable {condition : Fix → Prop}

theorem some {fix : Fix} (holds : condition fix) : Offered condition (some fix) := by
  simpa [Offered] using holds

theorem bind {value : Option α} {next : α → Option Fix}
    (offered : ∀ a, value = .some a → Offered condition (next a)) :
    Offered condition (value >>= next) := by
  intro fix member
  obtain ⟨a, found, member⟩ := Option.bind_eq_some_iff.mp member
  exact offered a found fix member

theorem map {value : Option α} {make : α → Fix}
    (holds : ∀ a, value = .some a → condition (make a)) : Offered condition (value.map make) := by
  intro fix member
  obtain ⟨a, found, rfl⟩ := Option.map_eq_some_iff.mp member
  exact holds a found

theorem orElse {first : Option Fix} {second : Unit → Option Fix}
    (first_offered : Offered condition first) (second_offered : Offered condition (second ())) :
    Offered condition (first.orElse second) := by
  cases first with
  | none => exact second_offered
  | some fix => exact first_offered

theorem toList {offer : Option Fix} (offered : Offered condition offer) :
    ∀ fix ∈ offer.toList, condition fix :=
  fun fix member => offered fix (Option.mem_toList.mp member)

theorem getD {offer : Option Fix} {other : Fix} (offered : Offered condition offer)
    (holds : condition other) : condition (offer.getD other) := by
  cases offer with
  | none => exact holds
  | some fix => exact offered fix rfl

end Fix.Offered

namespace Site

/-- Whatever is offered can be applied. -/
def Allows (site : Site) (offer : Option Fix) : Prop := ∀ fix ∈ offer, fix.isUsable site.document

section

variable {site : Site}

theorem Allows.some {fix : Fix} (usable : fix.isUsable site.document) : site.Allows (some fix) :=
  Fix.Offered.some usable

theorem Allows.bind {value : Option α} {next : α → Option Fix}
    (allows : ∀ a, value = .some a → site.Allows (next a)) : site.Allows (value >>= next) :=
  Fix.Offered.bind allows

theorem Allows.map {value : Option α} {make : α → Fix}
    (usable : ∀ a, value = .some a → (make a).isUsable site.document) :
    site.Allows (value.map make) :=
  Fix.Offered.map usable

theorem Allows.orElse {first : Option Fix} {second : Unit → Option Fix}
    (first_allowed : site.Allows first) (second_allowed : site.Allows (second ())) :
    site.Allows (first.orElse second) :=
  Fix.Offered.orElse first_allowed second_allowed

theorem Allows.toList {offer : Option Fix} (allows : site.Allows offer) :
    ∀ fix ∈ offer.toList, fix.isUsable site.document :=
  Fix.Offered.toList allows

theorem Allows.getD {offer : Option Fix} {other : Fix} (allows : site.Allows offer)
    (usable : other.isUsable site.document) : (offer.getD other).isUsable site.document :=
  Fix.Offered.getD allows usable

theorem isUsable_fix (title : Text) (e : Edit)
    (addressable : site.document.containsRange e.range) :
    (site.fix title e).isUsable site.document :=
  Fix.isUsable_ofEdit title site.diagnostic e addressable

variable (inside : site.document.containsRange site.range)

include inside

theorem line_lt : site.line < site.document.lineCount :=
  (Document.containsRange_iff.mp inside).1.line_lt

theorem line?_eq_lineText : site.document.line? site.line = some site.lineText := by
  obtain ⟨text, found⟩ := Option.isSome_iff_exists.mp
    (Document.line?_isSome_iff.mpr (line_lt inside))
  rw [lineText, found, Option.getD_some]

theorem isUsable_replaceRange (title text : Text) :
    (site.replaceRange title text).isUsable site.document :=
  isUsable_fix title (.replace site.range text) inside

theorem isUsable_deleteRange (title : Text) :
    (Fix.deleteRange title site.diagnostic).isUsable site.document :=
  isUsable_fix title (.delete site.range) inside

theorem isUsable_replaceLine (title text : Text) :
    (site.replaceLine title text).isUsable site.document :=
  isUsable_fix title (.replace (site.document.lineRange site.line) text)
    (Document.containsRange_lineRange (line_lt inside))

theorem isUsable_deleteLine (title : Text) :
    (Fix.deleteLine title site.diagnostic site.document).isUsable site.document :=
  isUsable_fix title (.delete (site.document.deletionRange site.line))
    (Document.containsRange_deletionRange (line_lt inside))

end

end Site

namespace Provider

/-- At a site with an addressable range the provider does not break down, and every fix that it
builds there can be applied. -/
def IsSound (provider : Provider) : Prop :=
  ∀ site : Site, site.document.containsRange site.range →
    ∃ fixes, provider.build site = some fixes ∧ ∀ fix ∈ fixes, fix.isUsable site.document

theorem isSound_total (codes : List Text) {repair : Site → List Fix}
    (usable : ∀ site : Site, site.document.containsRange site.range →
      ∀ fix ∈ repair site, fix.isUsable site.document) :
    (total codes repair).IsSound :=
  fun site inside => ⟨repair site, rfl, usable site inside⟩

theorem isSound_single (code : Text) {repair : Site → Option Fix}
    (allows : ∀ site : Site, site.document.containsRange site.range →
      site.Allows (repair site)) :
    (single code repair).IsSound :=
  isSound_total [code] fun site inside => (allows site inside).toList

/-- Nothing that a sound provider builds is withheld. -/
theorem IsSound.usableFixes_eq {provider : Provider} (sound : provider.IsSound) {site : Site}
    (inside : site.document.containsRange site.range) :
    provider.build site = some (provider.usableFixes site) := by
  obtain ⟨fixes, built, usable⟩ := sound site inside
  rw [usableFixes, built, Option.getD_some, List.filter_eq_self.mpr usable]

end Provider

end LintRepair
