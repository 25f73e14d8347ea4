import RayScene.Proofs.Stored.Reading
import RayScene.Stored.Settings
set_option autoImplicit false

namespace RayScene

open Json

section Geometry

theorem Vec2.reads (v : Vec2) : Reads Vec2.ofJson? v.toJson v := by
  apply reads_array
  intro x hx y hy
  simp [ComeBack, ofJson?, reads_double _ x hx, reads_double _ y hy]

theorem Vec3.reads (v : Vec3) : Reads Vec3.ofJson? v.toJson v := by
  apply reads_array
  intro x hx y hy z hz
  simp [ComeBack, ofJson?, reads_double _ x hx, reads_double _ y hy, reads_double _ z hz]

theorem Rgb.reads (c : Rgb) : Reads Rgb.ofJson? c.toJson c := by
  apply reads_array
  intro r hr g hg b hb
  simp [ComeBack, ofJson?, reads_single _ r hr, reads_single _ g hg, reads_single _ b hb]

theorem Rgba.reads (c : Rgba) : Reads Rgba.ofJson? c.toJson c := by
  apply reads_array
  intro r hr g hg b hb a ha
  simp [ComeBack, ofJson?, reads_single _ r hr, reads_single _ g hg, reads_single _ b hb,
    reads_single _ a ha]

theorem Rotation.reads_components (r : Rotation) : Reads Rotation.ofComponents?
    (.array [ofDouble r.x, ofDouble r.y, ofDouble r.z, ofDouble r.w]) r := by
  apply reads_array
  intro x hx y hy z hz w hw
  simp [ComeBack, ofComponents?, reads_double _ x hx, reads_double _ y hy, reads_double _ z hz,
    reads_double _ w hw]

theorem Rotation.reads (r : Rotation) : Reads Rotation.ofJson? r.toJson r := by
  apply reads_record ["q"] rfl (by decide)
  intro q hq
  simp [ComeBack, required, r.reads_components q hq]

theorem Placement.reads (p : Placement) : Reads Placement.ofJson? p.toJson p := by
  apply reads_record ["base", "rotation"] rfl (by decide)
  intro base hbase rotation hrotation
  simp [ComeBack, required, p.base.reads base hbase, p.rotation.reads rotation hrotation]

theorem Triangle.reads (t : Triangle) : Reads Triangle.ofJson? t.toJson t := by
  apply reads_array
  intro a ha b hb c hc
  simp [ComeBack, ofJson?, reads_uint32 _ a ha, reads_uint32 _ b hb, reads_uint32 _ c hc]

theorem TriMesh.reads (m : TriMesh) : Reads TriMesh.ofJson? (.object m.members) m := by
  apply reads_record ["vertices", "triangles"] rfl (by decide)
  intro vertices hvertices triangles htriangles
  have hv := reads_list (fun v _ => v.reads) vertices hvertices
  have ht := reads_list (fun t _ => t.reads) triangles htriangles
  simp [ComeBack, required, hv, ht]

end Geometry

section Sketches

theorem ArcOrientation.reads (nested : Bool) (o : ArcOrientation) :
    Reads (choice? nested choices) (nameIn choices o) o :=
  reads_choice (by decide) (by cases o <;> decide) nested

theorem Segment.reads (nested : Bool) (s : Segment) :
    Reads (Segment.ofJson? nested) s.toJson s := by
  cases s with
  | point p =>
    apply reads_tagged nested (by decide) (by simp)
    apply reads_record ["at"] rfl (by decide)
    intro place hplace
    simp [ComeBack, required, p.reads place hplace]
  | line a b =>
    apply reads_tagged nested (by decide) (by simp)
    apply reads_record ["start", "end"] rfl (by decide)
    intro start hstart finish hfinish
    simp [ComeBack, required, a.reads start hstart, b.reads finish hfinish]
  | circle c r =>
    apply reads_tagged nested (by decide) (by simp)
    apply reads_record ["center", "radius"] rfl (by decide)
    intro center hcenter radius hradius
    simp [ComeBack, required, c.reads center hcenter, reads_double r radius hradius]
  | arc a =>
    apply reads_tagged nested (by decide) (by simp)
    apply reads_record ["center", "radius", "start_angle", "end_angle", "orientation"] rfl
      (by decide)
    intro center hcenter radius hradius start hstart finish hfinish orientation horientation
    simp [ComeBack, required, a.center.reads center hcenter, reads_double _ radius hradius,
      reads_double _ start hstart, reads_double _ finish hfinish,
      a.orientation.reads true orientation horientation]
  | unsupported kind =>
    apply reads_tagged nested (by decide) (by simp)
    apply reads_record ["kind"] rfl (by decide)
    intro name hname
    simp [ComeBack, required, reads_string kind name hname]

theorem SketchEntity.reads (nested : Bool) (e : SketchEntity) :
    Reads (SketchEntity.ofJson? nested) e.toJson e := by
  apply reads_record ["segment", "construction"] rfl (by decide)
  intro segment hsegment construction hconstruction
  simp [ComeBack, required, defaulted, e.segment.reads nested segment hsegment,
    reads_bool _ construction hconstruction]

theorem Sketch.reads (nested : Bool) (s : Sketch) :
    Reads (Sketch.ofJson? nested) (.object s.members) s := by
  apply reads_record ["geometry"] rfl (by decide)
  intro geometry hgeometry
  have hg := reads_list (fun e _ => e.reads nested) geometry hgeometry
  simp [ComeBack, required, hg]

end Sketches

section Lights

theorem Light.reads (l : Light) : Reads Light.ofJson? (.object l.members) l := by
  apply reads_record ["color", "fade_distance", "fade_power"] rfl (by decide)
  intro color hcolor distance hdistance power hpower
  simp [ComeBack, required, defaulted, l.color.reads color hcolor,
    reads_double _ distance hdistance, reads_double _ power hpower]

theorem AreaLight.reads (a : AreaLight) : Reads AreaLight.ofJson? (.object a.members) a := by
  apply reads_record ["light", "length", "width", "length_lights", "width_lights", "adaptive",
    "area_illumination", "jitter"] rfl (by decide)
  intro light hlight length hlength width hwidth lengthLights hlengthLights widthLights hwidthLights
    adaptive hadaptive illumination hillumination jitter hjitter
  simp [ComeBack, required, defaulted, a.light.reads light hlight, reads_double _ length hlength,
    reads_double _ width hwidth, reads_uint32 _ lengthLights hlengthLights,
    reads_uint32 _ widthLights hwidthLights, reads_uint32 _ adaptive hadaptive,
    reads_bool _ illumination hillumination, reads_bool _ jitter hjitter]

theorem SpotLight.reads (s : SpotLight) : Reads SpotLight.ofJson? (.object s.members) s := by
  apply reads_record ["light", "radius", "falloff", "tightness"] rfl (by decide)
  intro light hlight radius hradius falloff hfalloff tightness htightness
  simp [ComeBack, required, s.light.reads light hlight, reads_double _ radius hradius,
    reads_double _ falloff hfalloff, reads_double _ tightness htightness]

end Lights

section Views

theorem ShapeMaterial.reads (m : ShapeMaterial) : Reads ShapeMaterial.ofJson? m.toJson m := by
  apply reads_record ["ambient_color", "diffuse_color", "emissive_color", "specular_color",
    "shininess"] rfl (by decide)
  intro ambient hambient diffuse hdiffuse emissive hemissive specular hspecular shininess hshininess
  simp [ComeBack, defaulted, m.ambient.reads ambient hambient, m.diffuse.reads diffuse hdiffuse,
    m.emissive.reads emissive hemissive, m.specular.reads specular hspecular,
    reads_double _ shininess hshininess]

theorem ViewStyle.reads (v : ViewStyle) : Reads ViewStyle.ofJson? v.toJson v := by
  apply reads_record ["shape_color", "transparency", "shape_material", "deviation",
    "angular_deflection"] rfl (by decide)
  intro color hcolor transparency htransparency material hmaterial deviation hdeviation angular
    hangular
  have ha := reads_option rfl (fun x _ => reads_double x) angular hangular
  simp [ComeBack, defaulted, v.color.reads color hcolor, reads_uint8 _ transparency htransparency,
    v.material.reads material hmaterial, reads_double _ deviation hdeviation, ha]

theorem Projection.reads (nested : Bool) (p : Projection) :
    Reads (choice? nested choices) (nameIn choices p) p :=
  reads_choice (by decide) (by cases p <;> decide) nested

theorem Camera.reads (c : Camera) : Reads Camera.ofJson? c.toJson c := by
  apply reads_record ["kind", "orientation", "position", "height", "view_direction"] rfl (by decide)
  intro projection hprojection orientation horientation position hposition height hheight direction
    hdirection
  simp [ComeBack, defaulted, c.projection.reads false projection hprojection,
    c.orientation.reads orientation horientation, c.position.reads position hposition,
    reads_double _ height hheight, c.direction.reads direction hdirection]

end Views

end RayScene
