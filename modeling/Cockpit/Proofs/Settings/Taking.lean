import Cockpit.Proofs.Settings.Offers
import Cockpit.Settings.Config

/-!
# What a configuration takes over

Much of what is done with a configuration concerns its files and its log.  `Config.Shows x y`
says that `x` gives what `y` gives, and does to the settings what `y` does to them, whatever else
it does.

Taking the entries of an object over shows as offering them to the settings one after another
and then noting that something has been loaded (`Config.update_shows`), if the object has no inner
names (`Settings.isProper`).  With the inner name of all values, an object gives a section values
that nothing converts (`Config.get_update_values`).
-/

namespace Cockpit.Config

open Op
open Settings (Place)

variable {α β : Type} {c : Config}

/-- Whether an operation on a configuration gives what another one gives on its settings, and
does the same to them. -/
def Shows (x : Op Config α) (y : Op Settings α) : Prop :=
  ∀ c, (x.run c).1 = (y.run c.settings).1 ∧ (x.run c).2.settings = (y.run c.settings).2

theorem pure_shows (a : α) : Shows (pure a) (pure a) := fun _ => ⟨rfl, rfl⟩

theorem say_shows (level : Log.Level) (text : String) : Shows (say level text) (pure ()) :=
  fun _ => ⟨rfl, rfl⟩

theorem Shows.bind {x : Op Config α} {y : Op Settings α} {f : α → Op Config β}
    {g : α → Op Settings β} (hx : Shows x y) (hf : ∀ a, Shows (f a) (g a)) :
    Shows (x >>= f) (y >>= g) := by
  intro c
  obtain ⟨hresult, hsettings⟩ := hx c
  rcases run_bind_cases x f c with ⟨a, d, hr, hrun⟩ | ⟨e, d, hr, hrun⟩
  · rw [hr] at hresult hsettings
    rw [hrun, run_bind_ok (Prod.ext hresult.symm hsettings.symm)]
    exact hf a d
  · rw [hr] at hresult hsettings
    rw [hrun, run_bind_error (Prod.ext hresult.symm hsettings.symm)]
    exact ⟨rfl, rfl⟩

/-! ## Values -/

/-- Offering a value to a place. -/
theorem takeValue_shows (name : String) (p : Place) (v : Value) :
    Shows (state >>= fun c => takeValue name (c.settings.value p) v fun w s => s.put w p)
      (Settings.take p v) := by
  intro c
  show ((takeValue name (c.settings.value p) v fun w s => s.put w p).run c).1 = _ ∧
    ((takeValue name (c.settings.value p) v fun w s => s.put w p).run c).2.settings = _
  rw [Settings.take, run_state_bind, takeValue, run_recover, run_liftM_bind]
  cases Settings.convert (c.settings.value p) v with
  | ok w => exact ⟨rfl, rfl⟩
  | error f =>
      dsimp only
      cases f.isConversion with
      | true => exact ⟨rfl, rfl⟩
      | false => exact ⟨rfl, rfl⟩

/-- Taking an entry of a section over is offering what it offers. -/
theorem takeMember_shows (g : Settings.Section) {name : String} (h : Settings.isInner name = false)
    (v : Value) :
    Shows (takeMember g name v) (Settings.takeAll (Settings.sectionOffers g [(name, v)])) := by
  rw [takeMember, Settings.sectionOffers, List.filterMap_cons]
  dsimp only
  cases g.key? name with
  | none =>
      dsimp only [Option.map_none]
      rw [if_neg (Settings.ne_valuesName h), if_neg (Settings.ne_holderName h)]
      exact pure_shows ()
  | some k =>
      dsimp only [Option.map_some, List.filterMap_nil]
      rw [Settings.takeAll_singleton]
      exact takeValue_shows name (.key k) v

/-- Taking a section over is offering what its entries offer. -/
theorem takeSection_shows (g : Settings.Section) {es : Entries}
    (h : Settings.hasPlainNames es = true) :
    Shows (takeSection g es) (Settings.takeAll (Settings.sectionOffers g es)) := by
  rw [Settings.hasPlainNames_iff] at h
  induction es with
  | nil => exact pure_shows ()
  | cons e es ih =>
      obtain ⟨hname, hes⟩ := List.forall_mem_cons.mp h
      have hsplit : Settings.sectionOffers g (e :: es) =
          Settings.sectionOffers g [e] ++ Settings.sectionOffers g es :=
        List.filterMap_append (l := [e])
      rw [hsplit, Settings.takeAll_append]
      exact (takeMember_shows g hname e.2).bind fun _ => ih hes

/-- Taking an entry over is offering what it offers. -/
theorem takeEntry_shows {name : String} {v : Value} (hname : Settings.isInner name = false)
    (hv : ∀ (g : Settings.Section) (es : Entries), g.name = name → v = .object es →
      Settings.hasPlainNames es = true) :
    Shows (takeEntry name v) (Settings.takeAll (Settings.entryOffers name v)) := by
  unfold takeEntry Settings.entryOffers
  cases hg : Settings.Section.ofName? name with
  | some g =>
      have hgroup : g.name = name := Settings.Section.ofName?_eq_some.mp hg
      cases v with
      | object es => exact takeSection_shows g (hv g es hgroup rfl)
      | _ => exact say_shows _ _
  | none =>
      dsimp only
      split
      · rw [Settings.takeAll_singleton]
        exact takeValue_shows name .version v
      · split
        · rw [Settings.takeAll_singleton]
          exact takeValue_shows name .firstRun v
        · rw [if_neg (Settings.ne_holderName hname)]
          exact pure_shows ()

/-- Taking an object without inner names over is offering what its entries offer, and then noting
that something has been loaded. -/
theorem update_shows {es : Entries} (h : Settings.isProper es = true) :
    Shows (update (.object es)) (Settings.takeAll (Settings.offers es) >>= fun _ =>
      .update (·.put (.bool false) .firstRun)) := by
  obtain ⟨hnames, hsections⟩ := Settings.isProper_iff.mp h
  rw [Settings.hasPlainNames_iff] at hnames
  have entries : Shows (es.forM fun e => takeEntry e.1 e.2)
      (Settings.takeAll (Settings.offers es)) := by
    clear h
    induction es with
    | nil => exact pure_shows ()
    | cons e es ih =>
        obtain ⟨hname, hnames⟩ := List.forall_mem_cons.mp hnames
        rw [Settings.offers, List.flatMap_cons, Settings.takeAll_append]
        refine (takeEntry_shows hname fun g fs hg hfs => hsections g fs ?_).bind fun _ =>
          ih hnames fun g fs hmem => hsections g fs (List.mem_cons_of_mem e hmem)
        rw [hg, ← hfs]
        exact List.mem_cons_self
  exact entries.bind fun _ _ => ⟨rfl, rfl⟩

/-- All values of a section are replaced by those given for the section as a whole, whatever their
types, or by the defaults.  No other section changes. -/
theorem get_update_values (g : Settings.Section) (es : Entries) (k : Settings.Key) :
    let whole := [(g.name, .object [(Settings.valuesName, .object es)])]
    ((update (.object whole)).run c).2.settings.get k =
      if k.group = g then es.getD k.name (Settings.get {} k) else c.settings.get k := by
  rw [← Settings.get_refill]
  cases g <;> rfl

end Cockpit.Config
