/-
# Fragments of Java programs

The definition, parser and serializer of each structure as Java text, and the runtime that every
program carries: canonical JSON, sorting of unordered results, and running one case.
All fragments but the definitions are members of the class that holds the harness, so they are
indented and static. Java has no JSON reader of its own; the runtime brings one.
-/

import HarnessSynthesis.Fragments.Block

namespace HarnessSynthesis.Fragments.Java

/-- The type of a list node. -/
def listNodeDefinition : Text := block [
  "class ListNode \x7b",
  "    int val;",
  "    ListNode next;",
  "    ListNode() \x7b\x7d",
  "    ListNode(int val) \x7b this.val = val; \x7d",
  "    ListNode(int val, ListNode next) \x7b this.val = val; this.next = next; \x7d",
  "\x7d"]

/-- Builds a list node from plain data. -/
def listNodeParser : Text := block [
  "    static ListNode parseListNode(Object json) \x7b",
  "        if (!(json instanceof List)) return null;",
  "        ListNode dummy = new ListNode(0);",
  "        ListNode cur = dummy;",
  "        for (Object value : (List<?>) json) \x7b",
  "            cur.next = new ListNode(((Number) value).intValue());",
  "            cur = cur.next;",
  "        \x7d",
  "        return dummy.next;",
  "    \x7d"]

/-- Turns a list node back into plain data. -/
def listNodeSerializer : Text := block [
  "    static List<Object> serializeListNode(ListNode head) \x7b",
  "        List<Object> out = new ArrayList<>();",
  "        for (ListNode cur = head; cur != null; cur = cur.next) \x7b",
  "            out.add(harnessToPlain(cur.val));",
  "        \x7d",
  "        return out;",
  "    \x7d"]

/-- The fragments of a list node. -/
def listNode : Fragments :=
  ⟨listNodeDefinition, listNodeParser, listNodeSerializer⟩

/-- The type of a tree node. -/
def treeNodeDefinition : Text := block [
  "class TreeNode \x7b",
  "    int val;",
  "    TreeNode left;",
  "    TreeNode right;",
  "    TreeNode() \x7b\x7d",
  "    TreeNode(int val) \x7b this.val = val; \x7d",
  "    TreeNode(int val, TreeNode left, TreeNode right) \x7b",
  "        this.val = val;",
  "        this.left = left;",
  "        this.right = right;",
  "    \x7d",
  "\x7d"]

/-- Builds a tree node from plain data. -/
def treeNodeParser : Text := block [
  "    static TreeNode parseTreeNode(Object json) \x7b",
  "        if (!(json instanceof List)) return null;",
  "        List<?> values = (List<?>) json;",
  "        if (values.isEmpty() || values.get(0) == null) return null;",
  "        TreeNode root = new TreeNode(((Number) values.get(0)).intValue());",
  "        Deque<TreeNode> queue = new ArrayDeque<>();",
  "        queue.add(root);",
  "        int i = 1;",
  "        while (!queue.isEmpty() && i < values.size()) \x7b",
  "            TreeNode node = queue.poll();",
  "            if (i < values.size() && values.get(i) != null) \x7b",
  "                node.left = new TreeNode(((Number) values.get(i)).intValue());",
  "                queue.add(node.left);",
  "            \x7d",
  "            i++;",
  "            if (i < values.size() && values.get(i) != null) \x7b",
  "                node.right = new TreeNode(((Number) values.get(i)).intValue());",
  "                queue.add(node.right);",
  "            \x7d",
  "            i++;",
  "        \x7d",
  "        return root;",
  "    \x7d"]

/-- Turns a tree node back into plain data. -/
def treeNodeSerializer : Text := block [
  "    static List<Object> serializeTreeNode(TreeNode root) \x7b",
  "        List<Object> out = new ArrayList<>();",
  "        LinkedList<TreeNode> queue = new LinkedList<>();",
  "        queue.add(root);",
  "        while (!queue.isEmpty()) \x7b",
  "            TreeNode node = queue.poll();",
  "            if (node == null) \x7b",
  "                out.add(null);",
  "                continue;",
  "            \x7d",
  "            out.add(harnessToPlain(node.val));",
  "            queue.add(node.left);",
  "            queue.add(node.right);",
  "        \x7d",
  "        while (!out.isEmpty() && out.get(out.size() - 1) == null) out.remove(out.size() - 1);",
  "        return out;",
  "    \x7d"]

/-- The fragments of a tree node. -/
def treeNode : Fragments :=
  ⟨treeNodeDefinition, treeNodeParser, treeNodeSerializer⟩

/-- The type of an interval. -/
def intervalDefinition : Text := block [
  "class Interval \x7b",
  "    int start;",
  "    int end;",
  "    Interval() \x7b\x7d",
  "    Interval(int start, int end) \x7b this.start = start; this.end = end; \x7d",
  "\x7d"]

/-- Builds an interval from plain data. -/
def intervalParser : Text := block [
  "    static Interval parseInterval(Object json) \x7b",
  "        if (!(json instanceof List)) return null;",
  "        List<?> pair = (List<?>) json;",
  "        return new Interval(((Number) pair.get(0)).intValue(), ((Number) pair.get(1)).intValue());",
  "    \x7d"]

/-- Turns an interval back into plain data. -/
def intervalSerializer : Text := block [
  "    static List<Object> serializeInterval(Interval interval) \x7b",
  "        if (interval == null) return null;",
  "        List<Object> out = new ArrayList<>();",
  "        out.add(harnessToPlain(interval.start));",
  "        out.add(harnessToPlain(interval.end));",
  "        return out;",
  "    \x7d"]

/-- The fragments of an interval. -/
def interval : Fragments :=
  ⟨intervalDefinition, intervalParser, intervalSerializer⟩

/-- The type of a graph node. -/
def graphNodeDefinition : Text := block [
  "class GraphNode \x7b",
  "    public int val;",
  "    public List<GraphNode> neighbors;",
  "    public GraphNode() \x7b this(0); \x7d",
  "    public GraphNode(int val) \x7b this.val = val; this.neighbors = new ArrayList<GraphNode>(); \x7d",
  "    public GraphNode(int val, List<GraphNode> neighbors) \x7b this.val = val; this.neighbors = neighbors; \x7d",
  "\x7d"]

/-- Builds a graph node from plain data. -/
def graphNodeParser : Text := block [
  "    static GraphNode parseGraphNode(Object json) \x7b",
  "        if (!(json instanceof List)) return null;",
  "        List<?> adjacency = (List<?>) json;",
  "        if (adjacency.isEmpty()) return null;",
  "        List<GraphNode> nodes = new ArrayList<>();",
  "        for (int i = 0; i < adjacency.size(); i++) nodes.add(new GraphNode(i + 1));",
  "        for (int i = 0; i < adjacency.size(); i++) \x7b",
  "            Object row = adjacency.get(i);",
  "            if (!(row instanceof List)) continue;",
  "            for (Object v : (List<?>) row) nodes.get(i).neighbors.add(nodes.get(((Number) v).intValue() - 1));",
  "        \x7d",
  "        return nodes.get(0);",
  "    \x7d"]

/-- Turns a graph node back into plain data. -/
def graphNodeSerializer : Text := block [
  "    static List<Object> serializeGraphNode(GraphNode node) \x7b",
  "        List<Object> out = new ArrayList<>();",
  "        if (node == null) return out;",
  "        Map<Integer, GraphNode> seen = new TreeMap<>();",
  "        Deque<GraphNode> queue = new ArrayDeque<>();",
  "        seen.put(node.val, node);",
  "        queue.add(node);",
  "        while (!queue.isEmpty()) \x7b",
  "            GraphNode cur = queue.poll();",
  "            if (cur.neighbors == null) continue;",
  "            for (GraphNode next : cur.neighbors) \x7b",
  "                if (next != null && !seen.containsKey(next.val)) \x7b",
  "                    seen.put(next.val, next);",
  "                    queue.add(next);",
  "                \x7d",
  "            \x7d",
  "        \x7d",
  "        for (GraphNode n : seen.values()) \x7b",
  "            List<Object> row = new ArrayList<>();",
  "            if (n.neighbors != null) \x7b",
  "                for (GraphNode m : n.neighbors) row.add((long) m.val);",
  "            \x7d",
  "            out.add(row);",
  "        \x7d",
  "        return out;",
  "    \x7d"]

/-- The fragments of a graph node. -/
def graphNode : Fragments :=
  ⟨graphNodeDefinition, graphNodeParser, graphNodeSerializer⟩

/-- The type of a trie node. -/
def trieNodeDefinition : Text := block [
  "class TrieNode \x7b",
  "    Map<Character, TrieNode> children = new HashMap<>();",
  "    boolean isEnd;",
  "    TrieNode() \x7b\x7d",
  "\x7d"]

/-- Builds a trie node from plain data. -/
def trieNodeParser : Text := block [
  "    static TrieNode parseTrieNode(Object json) \x7b",
  "        if (!(json instanceof Map)) return null;",
  "        TrieNode node = new TrieNode();",
  "        for (Map.Entry<?, ?> e : ((Map<?, ?>) json).entrySet()) \x7b",
  "            String key = String.valueOf(e.getKey());",
  "            if (key.equals(\"isEnd\")) \x7b",
  "                node.isEnd = Boolean.TRUE.equals(e.getValue());",
  "            \x7d else if (!key.isEmpty()) \x7b",
  "                TrieNode child = parseTrieNode(e.getValue());",
  "                if (child != null) node.children.put(key.charAt(0), child);",
  "            \x7d",
  "        \x7d",
  "        return node;",
  "    \x7d"]

/-- Turns a trie node back into plain data. -/
def trieNodeSerializer : Text := block [
  "    static Map<String, Object> serializeTrieNode(TrieNode node) \x7b",
  "        Map<String, Object> out = new TreeMap<>();",
  "        if (node == null) return out;",
  "        if (node.isEnd) out.put(\"isEnd\", Boolean.TRUE);",
  "        for (Map.Entry<Character, TrieNode> e : node.children.entrySet()) \x7b",
  "            out.put(String.valueOf(e.getKey()), serializeTrieNode(e.getValue()));",
  "        \x7d",
  "        return out;",
  "    \x7d"]

/-- The fragments of a trie node. -/
def trieNode : Fragments :=
  ⟨trieNodeDefinition, trieNodeParser, trieNodeSerializer⟩

/-- What every program carries. -/
def runtime : Text := block [
  "    static final class HarnessJsonReader \x7b",
  "        private final String text;",
  "        private int pos;",
  "",
  "        HarnessJsonReader(String text) \x7b this.text = text; \x7d",
  "",
  "        Object read() \x7b",
  "            Object value = value();",
  "            skip();",
  "            return value;",
  "        \x7d",
  "",
  "        private void skip() \x7b",
  "            while (pos < text.length() && Character.isWhitespace(text.charAt(pos))) pos++;",
  "        \x7d",
  "",
  "        private Object value() \x7b",
  "            skip();",
  "            char c = text.charAt(pos);",
  "            if (c == '[') \x7b",
  "                pos++;",
  "                List<Object> list = new ArrayList<>();",
  "                skip();",
  "                if (text.charAt(pos) == ']') \x7b pos++; return list; \x7d",
  "                while (true) \x7b",
  "                    list.add(value());",
  "                    skip();",
  "                    if (text.charAt(pos++) == ']') return list;",
  "                \x7d",
  "            \x7d",
  "            if (c == '\x7b') \x7b",
  "                pos++;",
  "                Map<String, Object> map = new TreeMap<>();",
  "                skip();",
  "                if (text.charAt(pos) == '\x7d') \x7b pos++; return map; \x7d",
  "                while (true) \x7b",
  "                    skip();",
  "                    String key = string();",
  "                    skip();",
  "                    pos++;",
  "                    map.put(key, value());",
  "                    skip();",
  "                    if (text.charAt(pos++) == '\x7d') return map;",
  "                \x7d",
  "            \x7d",
  "            if (c == '\"') return string();",
  "            if (text.startsWith(\"true\", pos)) \x7b pos += 4; return Boolean.TRUE; \x7d",
  "            if (text.startsWith(\"false\", pos)) \x7b pos += 5; return Boolean.FALSE; \x7d",
  "            if (text.startsWith(\"null\", pos)) \x7b pos += 4; return null; \x7d",
  "            int start = pos;",
  "            while (pos < text.length() && \"+-0123456789.eE\".indexOf(text.charAt(pos)) >= 0) pos++;",
  "            String number = text.substring(start, pos);",
  "            if (number.indexOf('.') >= 0 || number.indexOf('e') >= 0 || number.indexOf('E') >= 0) \x7b",
  "                return Double.parseDouble(number);",
  "            \x7d",
  "            try \x7b",
  "                return Long.parseLong(number);",
  "            \x7d catch (NumberFormatException e) \x7b",
  "                return Double.parseDouble(number);",
  "            \x7d",
  "        \x7d",
  "",
  "        private String string() \x7b",
  "            StringBuilder sb = new StringBuilder();",
  "            pos++;",
  "            while (pos < text.length()) \x7b",
  "                char c = text.charAt(pos++);",
  "                if (c == '\"') break;",
  "                if (c != '\\\\') \x7b sb.append(c); continue; \x7d",
  "                char e = text.charAt(pos++);",
  "                switch (e) \x7b",
  "                    case 'n': sb.append('\\n'); break;",
  "                    case 't': sb.append('\\t'); break;",
  "                    case 'r': sb.append('\\r'); break;",
  "                    case 'b': sb.append('\\b'); break;",
  "                    case 'f': sb.append('\\f'); break;",
  "                    case 'u':",
  "                        sb.append((char) Integer.parseInt(text.substring(pos, pos + 4), 16));",
  "                        pos += 4;",
  "                        break;",
  "                    default: sb.append(e);",
  "                \x7d",
  "            \x7d",
  "            return sb.toString();",
  "        \x7d",
  "    \x7d",
  "",
  "    static Object harnessParseJson(String text) \x7b",
  "        return new HarnessJsonReader(text).read();",
  "    \x7d",
  "",
  "    static String harnessFormatDouble(double d) \x7b",
  "        if (Double.isNaN(d) || Double.isInfinite(d)) return \"null\";",
  "        if (d == Math.rint(d) && Math.abs(d) < 1e15) return Long.toString((long) d);",
  "        return Double.toString(d);",
  "    \x7d",
  "",
  "    static void harnessWriteString(StringBuilder sb, String s) \x7b",
  "        sb.append('\"');",
  "        for (int i = 0; i < s.length(); i++) \x7b",
  "            char c = s.charAt(i);",
  "            switch (c) \x7b",
  "                case '\"': sb.append(\"\\\\\\\"\"); break;",
  "                case '\\\\': sb.append(\"\\\\\\\\\"); break;",
  "                case '\\n': sb.append(\"\\\\n\"); break;",
  "                case '\\r': sb.append(\"\\\\r\"); break;",
  "                case '\\t': sb.append(\"\\\\t\"); break;",
  "                case '\\b': sb.append(\"\\\\b\"); break;",
  "                case '\\f': sb.append(\"\\\\f\"); break;",
  "                default:",
  "                    if (c < 0x20) sb.append(String.format(\"\\\\u%04x\", (int) c));",
  "                    else sb.append(c);",
  "            \x7d",
  "        \x7d",
  "        sb.append('\"');",
  "    \x7d",
  "",
  "    static void harnessWriteJson(StringBuilder sb, Object value) \x7b",
  "        if (value == null) \x7b sb.append(\"null\"); return; \x7d",
  "        if (value instanceof String) \x7b harnessWriteString(sb, (String) value); return; \x7d",
  "        if (value instanceof Boolean) \x7b sb.append(value.toString()); return; \x7d",
  "        if (value instanceof Double || value instanceof Float) \x7b",
  "            sb.append(harnessFormatDouble(((Number) value).doubleValue()));",
  "            return;",
  "        \x7d",
  "        if (value instanceof Number) \x7b sb.append(((Number) value).longValue()); return; \x7d",
  "        if (value instanceof List) \x7b",
  "            sb.append('[');",
  "            boolean first = true;",
  "            for (Object item : (List<?>) value) \x7b",
  "                if (!first) sb.append(',');",
  "                first = false;",
  "                harnessWriteJson(sb, item);",
  "            \x7d",
  "            sb.append(']');",
  "            return;",
  "        \x7d",
  "        if (value instanceof Map) \x7b",
  "            Map<String, Object> sorted = new TreeMap<>();",
  "            for (Map.Entry<?, ?> e : ((Map<?, ?>) value).entrySet()) sorted.put(String.valueOf(e.getKey()), e.getValue());",
  "            sb.append('\x7b');",
  "            boolean first = true;",
  "            for (Map.Entry<String, Object> e : sorted.entrySet()) \x7b",
  "                if (!first) sb.append(',');",
  "                first = false;",
  "                harnessWriteString(sb, e.getKey());",
  "                sb.append(':');",
  "                harnessWriteJson(sb, e.getValue());",
  "            \x7d",
  "            sb.append('\x7d');",
  "            return;",
  "        \x7d",
  "        harnessWriteString(sb, String.valueOf(value));",
  "    \x7d",
  "",
  "    static String harnessStringify(Object value) \x7b",
  "        StringBuilder sb = new StringBuilder();",
  "        harnessWriteJson(sb, value);",
  "        return sb.toString();",
  "    \x7d",
  "",
  "    static Object harnessPlainBuiltin(Object value) \x7b",
  "        if (value == null) return null;",
  "        List<Object> out = new ArrayList<>();",
  "        if (value instanceof int[]) \x7b for (int v : (int[]) value) out.add((long) v); return out; \x7d",
  "        if (value instanceof long[]) \x7b for (long v : (long[]) value) out.add(v); return out; \x7d",
  "        if (value instanceof double[]) \x7b for (double v : (double[]) value) out.add(v); return out; \x7d",
  "        if (value instanceof float[]) \x7b for (float v : (float[]) value) out.add((double) v); return out; \x7d",
  "        if (value instanceof short[]) \x7b for (short v : (short[]) value) out.add((long) v); return out; \x7d",
  "        if (value instanceof byte[]) \x7b for (byte v : (byte[]) value) out.add((long) v); return out; \x7d",
  "        if (value instanceof char[]) \x7b for (char v : (char[]) value) out.add(String.valueOf(v)); return out; \x7d",
  "        if (value instanceof boolean[]) \x7b for (boolean v : (boolean[]) value) out.add(v); return out; \x7d",
  "        if (value instanceof Object[]) \x7b for (Object v : (Object[]) value) out.add(harnessToPlain(v)); return out; \x7d",
  "        if (value instanceof Iterable) \x7b for (Object v : (Iterable<?>) value) out.add(harnessToPlain(v)); return out; \x7d",
  "        if (value instanceof Map) \x7b",
  "            Map<String, Object> map = new TreeMap<>();",
  "            for (Map.Entry<?, ?> e : ((Map<?, ?>) value).entrySet()) \x7b",
  "                map.put(String.valueOf(e.getKey()), harnessToPlain(e.getValue()));",
  "            \x7d",
  "            return map;",
  "        \x7d",
  "        if (value instanceof Character) return String.valueOf(value);",
  "        if (value instanceof Float) return ((Float) value).doubleValue();",
  "        if (value instanceof Integer || value instanceof Short || value instanceof Byte) \x7b",
  "            return ((Number) value).longValue();",
  "        \x7d",
  "        if (value instanceof Number || value instanceof String || value instanceof Boolean) return value;",
  "        return String.valueOf(value);",
  "    \x7d",
  "",
  "    static int harnessCompare(Object a, Object b) \x7b",
  "        if (a instanceof Number && b instanceof Number) \x7b",
  "            return Double.compare(((Number) a).doubleValue(), ((Number) b).doubleValue());",
  "        \x7d",
  "        return harnessStringify(a).compareTo(harnessStringify(b));",
  "    \x7d",
  "",
  "    static Object harnessNormalize(Object value) \x7b",
  "        if (value instanceof List) \x7b",
  "            List<Object> items = new ArrayList<>();",
  "            for (Object item : (List<?>) value) items.add(harnessNormalize(item));",
  "            items.sort(Main::harnessCompare);",
  "            return items;",
  "        \x7d",
  "        if (value instanceof Map) \x7b",
  "            Map<String, Object> out = new TreeMap<>();",
  "            for (Map.Entry<?, ?> e : ((Map<?, ?>) value).entrySet()) \x7b",
  "                out.put(String.valueOf(e.getKey()), harnessNormalize(e.getValue()));",
  "            \x7d",
  "            return out;",
  "        \x7d",
  "        return value;",
  "    \x7d",
  "",
  "    static char[] harnessCharArray(Object json) \x7b",
  "        List<?> values = (List<?>) json;",
  "        char[] out = new char[values.size()];",
  "        for (int i = 0; i < out.length; i++) out[i] = String.valueOf(values.get(i)).charAt(0);",
  "        return out;",
  "    \x7d",
  "",
  "    static boolean[] harnessBooleanArray(Object json) \x7b",
  "        List<?> values = (List<?>) json;",
  "        boolean[] out = new boolean[values.size()];",
  "        for (int i = 0; i < out.length; i++) out[i] = Boolean.TRUE.equals(values.get(i));",
  "        return out;",
  "    \x7d",
  "",
  "    static String harnessVerdict(String status, String expectedJson, String actualJson, double time, String logs, String error) \x7b",
  "        StringBuilder sb = new StringBuilder(\"\x7b\\\"status\\\":\");",
  "        harnessWriteString(sb, status);",
  "        sb.append(\",\\\"expected\\\":\").append(expectedJson);",
  "        sb.append(\",\\\"actual\\\":\").append(actualJson);",
  "        sb.append(\",\\\"time\\\":\").append(harnessFormatDouble(time));",
  "        if (logs != null && !logs.isEmpty()) \x7b",
  "            sb.append(\",\\\"logs\\\":\");",
  "            harnessWriteString(sb, logs);",
  "        \x7d",
  "        if (error != null) \x7b",
  "            sb.append(\",\\\"error\\\":\");",
  "            harnessWriteString(sb, error);",
  "        \x7d",
  "        return sb.append('\x7d').toString();",
  "    \x7d"]

end HarnessSynthesis.Fragments.Java
