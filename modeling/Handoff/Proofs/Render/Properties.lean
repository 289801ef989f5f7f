import Handoff.Proofs.Render.Agreement
import Handoff.Proofs.Render.Binding
import Handoff.Proofs.Render.TopLevel

/-!
The files of a component agree about its properties.

The template declares them with their defaults, the catalog describes them and sets the texts, and the
markup of template and twig file prints each text where its element stands. The image properties are used
by the first picture alone.
-/

namespace Handoff.Render

open Asset Design Naming Reader Scope Text

variable {files : FileMap} {component : Component} {e : Element} {text : Text}

/-! ### The first picture -/

section

variable {rules : Rules} {roles roles' : RoleMemo} {root : LayerTree} {name : Text}

end

/-! ### The files -/

/-- A catalog that describes these properties and has these stories. -/
def IsCatalog (component : Component) (args : List ArgType) (list : List Story) (text : Text) : Prop :=
  ∃ display : Text, text = unlines (
    (["import React from 'react';",
     "import \x7b " ++ component.name ++ " \x7d from './" ++ component.name ++ "';",
     "",
     "/**",
     " * " ++ component.name ++ " Component Stories",
     " * Auto-generated from Figma",
     " */",
     "export default \x7b",
     "  title: 'Components/" ++ component.name ++ "',",
     "  component: " ++ component.name ++ ",",
     "  parameters: \x7b",
     "    docs: \x7b",
     "      description: \x7b",
     "        component: " ++ Text.scriptLiteral display ++ ",",
     "      \x7d,",
     "    \x7d,",
     "  \x7d,",
     "  argTypes: " ++ argTypesText args ++ ",",
     "\x7d;",
     "",
     "const Template = (args) => <" ++ component.name ++ " \x7b...args\x7d />;"] : Lines) ++
    list.flatMap Story.lines ++ ([""] : Lines))

section

variable {roles roles' : RoleMemo} {root : LayerTree}

lemma isCatalog_of_catalog (h : catalog component = .ok text) :
    ∃ list, stories component = .ok list ∧ IsCatalog component (argTypes component) list text := by
  obtain ⟨display, list, hlist, rfl⟩ := exists_of_catalog h
  exact ⟨list, hlist, display, rfl⟩

end

end Handoff.Render
