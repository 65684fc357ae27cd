import ReferenceSite.Page.Renderer

/-!
# The texts of the templates

The templates that come with the library are texts. What the trees of `ReferenceSite.Layout` say is what is
read from these texts, where the statements of a template take the line breaks behind them along
(`read_sources`).
-/

namespace ReferenceSite.Layout

open Template

end ReferenceSite.Layout
