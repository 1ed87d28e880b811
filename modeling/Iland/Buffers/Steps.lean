import Iland.Buffers.Program
import Iland.Data.Registry

namespace Iland.Buffers

open Iland.Data
open Iland.Drm
open Iland.Gbm
open Iland.Ioctl
open Iland.Sdl

variable {host : Host} {ioSurfaceGetID : IOSurface → UInt32} {dev : Device} {bos : List Bo} {b : Gbm.Buffers} {bo : Bo}

/-! What one operation does. -/

theorem drmRegisterGbmBuffer_eq (dev : Device) (handle : UInt32) (surface : IOSurface) :
    drmRegisterGbmBuffer dev handle (some surface) =
      { dev with gGbmBufs := if handle = 0 then dev.gGbmBufs
        else register GbmBufEntry.handle maxGbmBufs ⟨handle, surface⟩ dev.gGbmBufs } := by
  have sameTest : (fun buf : GbmBufEntry => buf.handle == handle) = fun buf => decide (buf.handle = handle) := by
    funext buf
    simp [Bool.beq_eq_decide_eq]
  simp only [drmRegisterGbmBuffer, register, sameTest]
  split_ifs <;> rfl

theorem drmUnregisterGbmBuffer_eq (dev : Device) (handle : UInt32) :
    drmUnregisterGbmBuffer dev handle =
      { dev with gGbmBufs := unregister GbmBufEntry.handle handle dev.gGbmBufs } := by
  have sameTest : (fun buf : GbmBufEntry => buf.handle == handle) = fun buf => decide (buf.handle = handle) := by
    funext buf
    simp [Bool.beq_eq_decide_eq]
  simp only [drmUnregisterGbmBuffer, unregister, sameTest]
  split
  · rename_i place last
    simp only [place, last]
  · rename_i missing
    split
    · rename_i place last
      exact absurd last (missing _ _ place)
    · rfl

/-! The table of handles. -/

/-- An entry of the handle table belongs to a live buffer, and no two entries
have the same handle. -/
structure Registered (ioSurfaceGetID : IOSurface → UInt32) (dev : Device) (bos : List Bo) : Prop where
  entries : ∀ entry ∈ dev.gGbmBufs, ∃ bo ∈ bos, bo.surface = entry.surface ∧ ioSurfaceGetID bo.surface = entry.handle
  distinct : (dev.gGbmBufs.map GbmBufEntry.handle).Nodup

theorem Registered.presents {after : Device} (registered : Registered ioSurfaceGetID dev bos)
    (same : Presents dev after) : Registered ioSurfaceGetID after bos := by
  refine ⟨?_, ?_⟩
  · simpa only [same.gGbmBufs] using registered.entries
  · simpa only [same.gGbmBufs] using registered.distinct

theorem Registered.create (registered : Registered ioSurfaceGetID b.dev b.bos) :
    Registered ioSurfaceGetID (b.gbmBoCreate ioSurfaceGetID (some bo)).2.dev
      (b.gbmBoCreate ioSurfaceGetID (some bo)).2.bos := by
  obtain ⟨entries, distinct⟩ := registered
  simp only [Gbm.Buffers.gbmBoCreate, drmRegisterGbmBuffer_eq]
  refine ⟨?_, ?_⟩
  · intro entry member
    have old (stored : entry ∈ b.dev.gGbmBufs) : ∃ other ∈ b.bos ++ [bo],
        other.surface = entry.surface ∧ ioSurfaceGetID other.surface = entry.handle := by
      obtain ⟨other, live, backs⟩ := entries entry stored
      exact ⟨other, List.mem_append_left _ live, backs⟩
    simp only at member
    split at member
    · exact old member
    · rcases mem_register member with rfl | stored
      · exact ⟨bo, by simp, rfl, rfl⟩
      · exact old stored
  · simp only
    split
    · exact distinct
    · exact nodup_register distinct

theorem Registered.free (registered : Registered ioSurfaceGetID b.dev b.bos) :
    Registered ioSurfaceGetID (b.free ioSurfaceGetID bo).dev (b.free ioSurfaceGetID bo).bos := by
  obtain ⟨entries, distinct⟩ := registered
  simp only [Gbm.Buffers.free, drmUnregisterGbmBuffer_eq]
  refine ⟨?_, nodup_unregister distinct⟩
  intro entry stored
  obtain ⟨old, apart⟩ := (mem_unregister distinct).mp stored
  obtain ⟨other, live, backs, handle⟩ := entries entry old
  -- A buffer with another handle is another buffer.
  have different : other ≠ bo := fun same => apart (handle ▸ same ▸ rfl)
  exact ⟨other, (List.mem_erase_of_ne different).mpr live, backs, handle⟩

def GbmFrame (before after : Device) : Prop :=
  after = { before with gGbmBufs := after.gGbmBufs, sdl := after.sdl }

theorem GbmFrame.trans {first second third : Device} (left : GbmFrame first second) (right : GbmFrame second third) :
    GbmFrame first third := by
  rw [GbmFrame] at left right ⊢
  rw [right, left]

theorem gbmFrame_create : GbmFrame b.dev (b.gbmBoCreate ioSurfaceGetID (some bo)).2.dev := by
  simp only [Gbm.Buffers.gbmBoCreate, drmRegisterGbmBuffer_eq]
  rfl

theorem gbmFrame_free : GbmFrame b.dev (b.free ioSurfaceGetID bo).dev := by
  simp only [Gbm.Buffers.free, drmUnregisterGbmBuffer_eq]
  rfl

inductive GbmStep (ioSurfaceGetID : IOSurface → UInt32) (b : Gbm.Buffers) : Op → Gbm.Buffers → Prop
  | boCreate created : GbmStep ioSurfaceGetID b (.boCreate created) (b.gbmBoCreate ioSurfaceGetID created).2
  | boDestroy {address after} : b.gbmBoDestroy ioSurfaceGetID address = .ok after →
      GbmStep ioSurfaceGetID b (.boDestroy address) after
  | surfaceCreate address created : GbmStep ioSurfaceGetID b (.surfaceCreate address created)
      (b.gbmSurfaceCreate ioSurfaceGetID address.isSome created).2
  | surfaceDestroy {address addresses after} : b.gbmSurfaceDestroy ioSurfaceGetID addresses = .ok after →
      GbmStep ioSurfaceGetID b (.surfaceDestroy address) after

theorem GbmStep.inv (Inv : Gbm.Buffers → Prop) (New : Gbm.Buffers → Bo → Prop) (Apart : Bo → Bo → Prop)
    (freed : ∀ b bo, Inv b → bo ∈ b.bos → Inv (b.free ioSurfaceGetID bo))
    (added : ∀ b bo, Inv b → New b bo → Inv (b.gbmBoCreate ioSurfaceGetID (some bo)).2)
    (stays : ∀ b bo other, New b other → Apart bo other → New (b.gbmBoCreate ioSurfaceGetID (some bo)).2 other)
    {op : Op} {after : Gbm.Buffers} (stepped : GbmStep ioSurfaceGetID b op after) (inv : Inv b)
    (apart : op.provided.Pairwise Apart) (new : ∀ bo ∈ op.provided, New b bo) : Inv after := by
  cases stepped with
  | boCreate created =>
      cases created with
      | none => exact inv
      | some bo => exact added b bo inv (new bo (by simp [Op.provided]))
  | boDestroy done => exact Gbm.Buffers.gbmBoDestroy_inv freed inv done
  | surfaceCreate address created => exact Gbm.Buffers.gbmSurfaceCreate_inv freed added stays inv apart new
  | surfaceDestroy done => exact Gbm.Buffers.gbmSurfaceDestroy_inv freed inv done

theorem GbmStep.frame {op : Op} {after : Gbm.Buffers} (stepped : GbmStep ioSurfaceGetID b op after) :
    GbmFrame b.dev after.dev := by
  refine stepped.inv (fun after => GbmFrame b.dev after.dev) (fun _ _ => True) (fun _ _ => True)
    (fun _ _ frame _ => frame.trans gbmFrame_free) (fun _ _ frame _ => frame.trans gbmFrame_create)
    (fun _ _ _ _ _ => trivial) rfl ?_ fun _ _ => trivial
  exact List.pairwise_of_forall fun _ _ => trivial

variable {p after : Program} {op : Op} {result : Result}

theorem gbm_cases (done : step host ioSurfaceGetID p op = .ok (after, result)) :
    (∃ a session out, op = .act a ∧ Iland.step host p.session a = .ok (session, out) ∧
      after = { p with
        session
        dumbsCreated := p.dumbsCreated + dumbsCreatedBy a out
        fbsCreated := p.fbsCreated + fbsCreatedBy a out }) ∨
    (∃ surface crtcId x y, op = .present surface crtcId x y ∧
      after = { p with session := p.session.withDev (p.dev.present host surface crtcId x y) }) ∨
    (∃ b surfaces, after = { p.withBuffers b with surfaces } ∧ GbmStep ioSurfaceGetID p.buffers op b) := by
  cases op with
  | act a =>
      left
      simp only [step] at done
      cases inner : Iland.step host p.session a with
      | error fault => simp [inner] at done
      | ok pair =>
          simp only [inner, Except.ok.injEq, Prod.mk.injEq] at done
          exact ⟨a, pair.1, pair.2, rfl, inner, done.1.symm⟩
  | present surface crtcId x y =>
      right; left
      simp only [step, Except.ok.injEq, Prod.mk.injEq] at done
      exact ⟨surface, crtcId, x, y, rfl, done.1.symm⟩
  | boCreate created =>
      right; right
      simp only [step, Except.ok.injEq, Prod.mk.injEq] at done
      exact ⟨_, _, done.1.symm, .boCreate created⟩
  | boDestroy address =>
      right; right
      simp only [step] at done
      cases inner : p.buffers.gbmBoDestroy ioSurfaceGetID address with
      | error reason => simp [inner, bind, Except.bind] at done
      | ok b =>
          simp only [inner, bind, Except.bind, pure, Except.pure, Except.ok.injEq, Prod.mk.injEq] at done
          exact ⟨b, _, done.1.symm, .boDestroy inner⟩
  | surfaceCreate address created =>
      right; right
      refine ⟨_, after.surfaces, ?_, .surfaceCreate address created⟩
      cases made : p.buffers.gbmSurfaceCreate ioSurfaceGetID address.isSome created with
      | mk bos b => cases address <;> cases bos <;> simp only [step, made] at done <;> cases done <;> rfl
  | surfaceDestroy address =>
      right; right
      cases address with
      | none =>
          simp only [step] at done
          cases inner : p.buffers.gbmSurfaceDestroy ioSurfaceGetID none with
          | error reason => simp [inner, bind, Except.bind] at done
          | ok b =>
              simp only [inner, bind, Except.bind, pure, Except.pure, Except.ok.injEq, Prod.mk.injEq] at done
              exact ⟨b, _, done.1.symm, .surfaceDestroy inner⟩
      | some address =>
          simp only [step] at done
          split at done
          · contradiction
          · rename_i surface found
            cases inner : p.buffers.gbmSurfaceDestroy ioSurfaceGetID (some surface.bos) with
            | error reason => simp [inner, bind, Except.bind] at done
            | ok b =>
                simp only [inner, bind, Except.bind, pure, Except.pure, Except.ok.injEq, Prod.mk.injEq] at done
                exact ⟨b, _, done.1.symm, .surfaceDestroy inner⟩

inductive ActStep (dev : Device) (a : Action) (out : Output) : Device → Prop
  | presents {next : Device} : Presents dev next → dumbsCreatedBy a out = 0 → fbsCreatedBy a out = 0 → ActStep dev a out next
  | addDumb {fd slot info} : a = .call (.createDumbBuffer fd (some info)) → (dev.gDumb slot).handle = 0 →
      dumbsCreatedBy a out = 1 → fbsCreatedBy a out = 0 → ActStep dev a out (addDumb dev slot info)
  | dropDumb i : dumbsCreatedBy a out = 0 → fbsCreatedBy a out = 0 → ActStep dev a out (dropDumb dev i)
  | addFb {fd boHandle hasId slot surf} : a = .call (.addFB fd boHandle hasId) → (dev.gFbs slot).fbId = 0 →
      dumbsCreatedBy a out = 0 → fbsCreatedBy a out = 1 → ActStep dev a out (addFb dev slot surf)
  | dropFb i : dumbsCreatedBy a out = 0 → fbsCreatedBy a out = 0 → ActStep dev a out (dropFb dev i)

theorem call_cases {world after : World} {c : Call} {reply : Reply} (isPublic : (Op.act (.call c)).isPublic = true)
    (tables : Call.tables c = true) (done : exec host world c = .ok (after, reply)) :
    ActStep world.dev (.call c) (.replied reply) after.dev := by
  cases c <;> simp only [Call.tables, Bool.false_eq_true] at tables <;>
    simp only [Op.isPublic, Bool.false_eq_true] at isPublic <;>
    simp only [exec, World.update, Except.ok.injEq, Prod.mk.injEq] at done <;> obtain ⟨rfl, rfl⟩ := done
  case createDumbBuffer fd created =>
    rcases createDumbBuffer_cases world.dev fd created with ⟨⟨e, failed⟩, _⟩ | ⟨slot, info, _, rfl, free, made⟩
    · simp only [failed, World.withDev]
      exact .presents (.refl _) rfl rfl
    · simp only [made, World.withDev]
      exact .addDumb rfl free rfl rfl
  case destroyDumbBuffer fd handle =>
    rcases destroyDumbBuffer_cases world.dev fd handle with ⟨e, same⟩ | ⟨i, _, same⟩
    · simp only [World.withDev, same]
      exact .presents (.refl _) rfl rfl
    · simp only [World.withDev, same]
      exact .dropDumb i rfl rfl
  case addFB fd boHandle hasId =>
    rcases addFB_cases world.dev fd boHandle hasId with ⟨⟨e, failed⟩, _⟩ | ⟨slot, surf, _, _, _, free, made⟩
    · simp only [failed, World.withDev]
      exact .presents (.refl _) rfl rfl
    · simp only [made, World.withDev]
      exact .addFb rfl free rfl rfl
  case rmFB fd bufId =>
    rcases rmFB_cases world.dev fd bufId with ⟨e, same⟩ | ⟨i, _, same⟩
    · simp only [World.withDev, same]
      exact .presents (.refl _) rfl rfl
    · simp only [World.withDev, same]
      exact .dropFb i rfl rfl

theorem created_of_no_reply (a : Action) {out : Output} (noReply : ∀ reply, out ≠ .replied reply) :
    dumbsCreatedBy a out = 0 ∧ fbsCreatedBy a out = 0 := by
  cases out with
  | replied reply => exact absurd rfl (noReply reply)
  | _ =>
      cases a with
      | call c => cases c <;> exact ⟨rfl, rfl⟩
      | _ => exact ⟨rfl, rfl⟩

theorem act_cases {session next : Session} {a : Action} {out : Output} (isPublic : (Op.act a).isPublic = true)
    (done : Iland.step host session a = .ok (next, out)) : ActStep session.world.dev a out next.world.dev := by
  rcases step_cases done with ⟨c, reply, rfl, rfl, called, _⟩ | ⟨event, handler, dev, rfl, rfl, taken, rfl⟩ |
    ⟨pipe, noDelivery, noReply, world⟩
  · cases tables : Call.tables c with
    | true => exact call_cases isPublic tables called
    | false =>
        refine .presents (exec_presents tables called) ?_ ?_ <;>
          cases c <;> simp only [Call.tables, Bool.true_eq_false] at tables <;> rfl
  · obtain ⟨_, _, same⟩ := dequeueFlipEvent_some taken
    refine .presents ?_ rfl rfl
    change Presents session.world.dev dev
    rw [same]
    exact ⟨rfl, rfl, rfl, rfl, rfl, fun _ => rfl⟩
  · obtain ⟨noDumb, noFb⟩ := created_of_no_reply a noReply
    refine .presents ?_ noDumb noFb
    rw [world]
    exact ⟨rfl, rfl, rfl, rfl, rfl, fun _ => rfl⟩

theorem counts_le (done : step host ioSurfaceGetID p op = .ok (after, result)) :
    p.dumbsCreated ≤ after.dumbsCreated ∧ p.fbsCreated ≤ after.fbsCreated := by
  rcases gbm_cases done with ⟨a, session, out, _, _, rfl⟩ | ⟨_, _, _, _, _, rfl⟩ | ⟨b, surfaces, rfl, _⟩
  · exact ⟨Nat.le_add_right _ _, Nat.le_add_right _ _⟩
  · exact ⟨le_rfl, le_rfl⟩
  · exact ⟨le_rfl, le_rfl⟩

end Iland.Buffers
