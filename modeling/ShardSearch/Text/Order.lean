/-!
The order of texts: by code point at the first place where they differ, a text before its
extensions. It is also the order of their UTF-8 bytes.
-/

set_option autoImplicit false

namespace ShardSearch.Text

def order (s t : String) : Ordering := compare s.toList t.toList

end ShardSearch.Text
