import BePyEco.Common.Values
import BePyEco.Library.Table

/-!
# Translation entries

One row for each entity, locale and field.  The entity is any row of any table, named by its
content type and its key.

Here as in the other tables a text of more characters than its column has is refused.  PostgreSQL
cuts off an excess that is all blanks instead, and refuses a text with a NUL in it whatever its
length.
-/

namespace BePyEco

open Library

/-- `ContentType`, by its natural key. -/
structure ContentType where
  appLabel : String
  model : String
  deriving DecidableEq, Repr

/-- A row of any table, as a generic foreign key names it. -/
structure Entity where
  contentType : ContentType
  pk : Id
  deriving DecidableEq, Repr

structure TranslationEntry where
  id : Id
  contentType : ContentType
  objectId : Id
  locale : String
  field : String
  value : String
  isAiGenerated : Bool
  isApproved : Bool
  deriving DecidableEq, Repr

/-- The columns of `unique_translation_entry_per_field_locale`. -/
structure TranslationSlot where
  entity : Entity
  locale : String
  field : String
  deriving DecidableEq, Repr

def TranslationEntry.entity (e : TranslationEntry) : Entity := ⟨e.contentType, e.objectId⟩

def TranslationEntry.slot (e : TranslationEntry) : TranslationSlot :=
  ⟨e.entity, e.locale, e.field⟩

instance : Model TranslationEntry where
  pk := TranslationEntry.id
  fits e := decide (e.locale.length ≤ 10) && decide (e.field.length ≤ 50)
  conflicts a b := decide (a.slot = b.slot)
  conflicts_symm a b := by simp [eq_comm]

/-! ## Updates -/

/-- The defaults of `set_translation`. -/
def TranslationEntry.setValue (value : String) (isAiGenerated : Bool) :
    Assignment TranslationEntry where
  apply e := { e with value := value, isAiGenerated := isAiGenerated, isApproved := !isAiGenerated }
  pk_apply _ := rfl
  fits_apply _ := rfl
  conflicts_apply _ _ := rfl

def TranslationEntry.setIsApproved (isApproved : Bool) : Assignment TranslationEntry where
  apply e := { e with isApproved := isApproved }
  pk_apply _ := rfl
  fits_apply _ := rfl
  conflicts_apply _ _ := rfl

end BePyEco
